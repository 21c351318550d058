import DataOpsStudio.Workflow.Acyclic
import DataOpsStudio.Workflow.Progress

/-!
# The order and the ancestors of an accepted workflow

The graph of an accepted workflow has no cycle.  A node that is not yet in the order and has no
such parent is ready; as long as nodes are left there is one, and so the order holds every node.
The ancestors of a node are collected from its parents, and the rank of a parent is less than that
of the node.
-/

namespace Workflow

open Text Graph

section Kahn

variable {nodes : List WorkflowNode} {edges : List WorkflowEdge}

/-- A node whose last open edge is removed is ready, and stays ready. -/
theorem mem_ready_of_foldl_relax {targets : List Text} {inDegree : Dict Text ℤ}
    {ready : List Text} {nodeId : Text}
    (h : nodeId ∈ ready ∨
      0 < degree inDegree nodeId ∧ degree inDegree nodeId = targets.count nodeId) :
  nodeId ∈ (targets.foldl relax (inDegree, ready)).2
  := by
  induction targets generalizing inDegree ready with
  | nil =>
      obtain h | ⟨hpos, hzero⟩ := h
      · exact h
      · rw [hzero] at hpos
        exact absurd hpos (lt_irrefl _)
  | cons target rest ih =>
      rw [List.foldl_cons]
      apply ih
      by_cases htarget : target = nodeId
      · subst htarget
        by_cases hlast : degree inDegree target - 1 = 0
        · left
          simp [hlast]
        · obtain h | ⟨hpos, hcount⟩ := h
          · left
            simp [hlast, h]
          · right
            rw [List.count_cons_self] at hcount
            push_cast at hcount
            rw [degree_set, if_pos rfl]
            dsimp only at hlast ⊢
            omega
      · obtain h | h := h
        · left
          split
          · exact List.mem_append_left _ h
          · exact h
        · right
          rw [degree_set, if_neg htarget]
          rw [List.count_cons_of_ne htarget] at h
          exact h

/-- What the loop keeps, besides: the nodes that are taken or ready are declared, and a declared
node without open edges is taken or ready. -/
structure KahnComplete (nodes : List WorkflowNode) (edges : List WorkflowEdge)
    (ready order : List Text) : Prop where
  declared : ∀ nodeId ∈ order ++ ready, nodeId ∈ nodes.map WorkflowNode.id
  free : ∀ nodeId ∈ nodes.map WorkflowNode.id, openEdges edges order nodeId = 0 →
    nodeId ∈ order ++ ready

theorem KahnComplete.step {inDegree : Dict Text ℤ} {current : Text} {ready order : List Text}
    (hdeclared : EdgesDeclared nodes edges)
    (hkahn : KahnInvariant edges inDegree (current :: ready) order)
    (h : KahnComplete nodes edges (current :: ready) order) :
  KahnComplete nodes edges
    (sortReady nodes ((downstream edges current).foldl relax (inDegree, ready)).2)
    (order ++ [current])
  := by
  have hcurrent : current ∉ order := by
    intro hmem
    exact (List.nodup_append.mp hkahn.nodup).2.2 current hmem current List.mem_cons_self rfl
  have hcount : ∀ nodeId, ((downstream edges current).count nodeId : ℤ)
      ≤ degree inDegree nodeId := by
    intro nodeId
    rw [hkahn.degree_eq, openEdges_append hcurrent]
    push_cast
    omega
  obtain ⟨-, newly, hready, -, hnewly⟩ :=
    foldl_relax (downstream edges current) inDegree ready hcount
  have hperm : ∀ nodeId, nodeId ∈ sortReady nodes
        ((downstream edges current).foldl relax (inDegree, ready)).2 ↔
      nodeId ∈ ((downstream edges current).foldl relax (inDegree, ready)).2 :=
    fun _ => (List.perm_insertionSort _ _).mem_iff
  constructor
  · intro nodeId hmem
    rw [List.mem_append, hperm, hready, List.mem_append (s := ready)] at hmem
    obtain hmem | hmem | hmem := hmem
    · apply h.declared nodeId
      simp only [List.mem_append, List.mem_cons, List.not_mem_nil, or_false] at hmem ⊢
      tauto
    · exact h.declared nodeId (List.mem_append_right _ (List.mem_cons_of_mem _ hmem))
    · obtain ⟨hpos, hzero⟩ := hnewly nodeId hmem
      have hin : nodeId ∈ downstream edges current := by
        apply List.count_pos_iff.mp
        omega
      obtain ⟨edge, hedge, -, rfl⟩ := mem_downstream_iff.mp hin
      exact (hdeclared edge hedge).2
  · intro nodeId hknown hfree
    rw [List.mem_append, hperm]
    by_cases hbefore : nodeId ∈ order ++ current :: ready
    · rw [List.mem_append, List.mem_cons] at hbefore
      obtain hmem | rfl | hmem := hbefore
      · exact .inl (List.mem_append_left _ hmem)
      · exact .inl (List.mem_append_right _ List.mem_cons_self)
      · exact .inr (mem_ready_of_foldl_relax (.inl hmem))
    · right
      apply mem_ready_of_foldl_relax
      right
      have hopen : openEdges edges order nodeId ≠ 0 := fun hzero => hbefore (h.free _ hknown hzero)
      have hsplit : openEdges edges order nodeId = openEdges edges (order ++ [current]) nodeId
          + (downstream edges current).count nodeId := openEdges_append hcurrent nodeId
      rw [hkahn.degree_eq]
      omega

/-- When nothing is ready, all nodes of an acyclic graph are in the order. -/
theorem KahnComplete.all {order : List Text} (hdeclared : EdgesDeclared nodes edges)
    (hacyclic : Acyclic (IsParent edges)) (h : KahnComplete nodes edges [] order) {nodeId : Text}
    (hknown : nodeId ∈ nodes.map WorkflowNode.id) :
  nodeId ∈ order
  := by
  by_contra hmissing
  have hleft : ((nodes.map WorkflowNode.id).toFinset \ order.toFinset).Nonempty :=
    ⟨nodeId, by simpa using ⟨List.mem_map.mp hknown, hmissing⟩⟩
  obtain ⟨first, hfirst, hminimal⟩ := exists_minimal hacyclic hleft
  rw [Finset.mem_sdiff, List.mem_toFinset, List.mem_toFinset] at hfirst
  have hfree : openEdges edges order first = 0 := by
    rw [openEdges, List.length_eq_zero_iff, List.filter_eq_nil_iff]
    intro edge hedge hopen
    simp only [Bool.and_eq_true, beq_iff_eq, Bool.not_eq_true', List.contains_eq_mem,
      decide_eq_false_iff_not] at hopen
    refine hminimal edge.source ?_ ⟨edge, hedge, rfl, hopen.1⟩
    rw [Finset.mem_sdiff, List.mem_toFinset, List.mem_toFinset]
    exact ⟨(hdeclared edge hedge).1, hopen.2⟩
  have hmem := h.free first hfirst.1 hfree
  rw [List.append_nil] at hmem
  exact hfirst.2 hmem

/-- The loop takes every node of an acyclic graph. -/
theorem kahnLoop_complete {fuel : ℕ} {inDegree : Dict Text ℤ} {ready order : List Text}
    (hdeclared : EdgesDeclared nodes edges) (hacyclic : Acyclic (IsParent edges))
    (hids : (nodes.map WorkflowNode.id).Nodup) (hkahn : KahnInvariant edges inDegree ready order)
    (h : KahnComplete nodes edges ready order) (hfuel : nodes.length < order.length + fuel) :
  ∃ result, kahnLoop nodes edges fuel inDegree ready order = .ok result ∧
    result.Perm (nodes.map WorkflowNode.id)
  := by
  have hlength : order.length + ready.length ≤ nodes.length := by
    have hle := (hkahn.nodup.subperm h.declared).length_le
    rw [List.length_append, List.length_map] at hle
    exact hle
  induction fuel generalizing inDegree ready order with
  | zero => omega
  | succ fuel ih =>
      cases ready with
      | nil =>
          refine ⟨order, rfl, (List.perm_ext_iff_of_nodup ?_ hids).mpr ?_⟩
          · have hnodup := hkahn.nodup
            rw [List.append_nil] at hnodup
            exact hnodup
          · intro nodeId
            constructor
            · intro hmem
              exact h.declared nodeId (List.mem_append_left _ hmem)
            · exact h.all hdeclared hacyclic
      | cons current ready =>
          have hnext := h.step hdeclared hkahn
          have hkept : KahnInvariant edges
              ((downstream edges current).foldl relax (inDegree, ready)).1
              (sortReady nodes ((downstream edges current).foldl relax (inDegree, ready)).2)
              (order ++ [current]) := hkahn.step
          rw [kahnLoop]
          apply ih hkept hnext
          · rw [List.length_append, List.length_singleton]
            omega
          · have hle := (hkept.nodup.subperm hnext.declared).length_le
            rw [List.length_append, List.length_map] at hle
            exact hle

end Kahn

/-! ### Ancestors -/

section Ancestors

variable {nodes : List WorkflowNode} {edges : List WorkflowEdge}

/-- Every cached list holds exactly the ancestors. -/
def AncestorCache.Exact (edges : List WorkflowEdge) (cache : AncestorCache) : Prop :=
  ∀ nodeId found, cache.get? nodeId = some found →
    ∀ upstream, upstream ∈ found ↔ IsAncestor edges upstream nodeId

/-- A cache with at least the nodes of another. -/
def AncestorCache.Extends (cache cache' : AncestorCache) : Prop :=
  ∀ nodeId found, cache.get? nodeId = some found → cache'.get? nodeId = some found

theorem mem_parents_iff {parent nodeId : Text} :
  parent ∈ parents edges nodeId ↔ IsParent edges parent nodeId
  := by
  constructor
  · exact isParent_of_mem_parents
  · rintro ⟨edge, hedge, rfl, rfl⟩
    exact List.mem_map_of_mem (List.mem_filter.mpr ⟨hedge, beq_self_eq_true _⟩)

/-- What comes before a node are its parents and what comes before them. -/
theorem isAncestor_iff_parents {upstream nodeId : Text} :
  IsAncestor edges upstream nodeId ↔
    ∃ parent ∈ parents edges nodeId, upstream = parent ∨ IsAncestor edges upstream parent
  := by
  rw [IsAncestor, Relation.TransGen.tail'_iff]
  constructor
  · rintro ⟨parent, hpath, hstep⟩
    refine ⟨parent, mem_parents_iff.mpr hstep, ?_⟩
    obtain heq | hpath := Relation.reflTransGen_iff_eq_or_transGen.mp hpath
    · exact .inl heq.symm
    · exact .inr hpath
  · rintro ⟨parent, hmem, rfl | hpath⟩
    · exact ⟨_, .refl, mem_parents_iff.mp hmem⟩
    · exact ⟨parent, hpath.to_reflTransGen, mem_parents_iff.mp hmem⟩

/-- One parent's part of the search for ancestors. -/
abbrev collectParent (edges : List WorkflowEdge) (fuel : ℕ) (acc : List Text × AncestorCache)
    (parent : Text) : Except Text (List Text × AncestorCache) := do
  let (upstream, cache) ← collect edges fuel parent acc.2
  return (acc.1 ++ parent :: upstream, cache)

/-- What the search for the ancestors of a node comes to. -/
def Collects (edges : List WorkflowEdge) (fuel : ℕ) (nodeId : Text) : Prop :=
  ∀ cache : AncestorCache, cache.Exact edges →
    ∃ found cache', collect edges fuel nodeId cache = .ok (found, cache') ∧
      cache'.Exact edges ∧ cache.Extends cache' ∧ cache'.get? nodeId = some found

/-- The parents' ancestors are collected one after the other. -/
theorem foldlM_collectParent {fuel : ℕ} {ps : List Text} (hps : ∀ p ∈ ps, Collects edges fuel p)
    {d : List Text} {cache : AncestorCache} (hcache : cache.Exact edges) :
  ∃ found cache', ps.foldlM (collectParent edges fuel) (d, cache) = .ok (found, cache') ∧
    cache'.Exact edges ∧ cache.Extends cache' ∧
    ∀ upstream, upstream ∈ found ↔
      upstream ∈ d ∨ ∃ p ∈ ps, upstream = p ∨ IsAncestor edges upstream p
  := by
  induction ps generalizing d cache with
  | nil => exact ⟨d, cache, rfl, hcache, fun _ _ h => h, by simp⟩
  | cons p ps ih =>
      obtain ⟨known, filled, hcollect, hfilled, hkept, hget⟩ :=
        hps p List.mem_cons_self cache hcache
      obtain ⟨found, cache', hfold, hexact, hextends, hmem⟩ :=
        ih (fun q hq => hps q (List.mem_cons_of_mem _ hq)) (d := d ++ p :: known) hfilled
      refine ⟨found, cache', ?_, hexact, fun n l hn => hextends n l (hkept n l hn), ?_⟩
      · rw [List.foldlM_cons, collectParent, hcollect]
        exact hfold
      · intro upstream
        rw [hmem, List.mem_append, List.mem_cons, hfilled p known hget upstream,
          List.exists_mem_cons_iff]
        exact or_assoc

theorem collects_of_rank {fuel : ℕ} {nodeId : Text} (hdeclared : EdgesDeclared nodes edges)
    (hacyclic : Acyclic (IsParent edges))
    (hfuel : rank (IsParent edges) (nodes.map WorkflowNode.id).toFinset nodeId < fuel) :
  Collects edges fuel nodeId
  := by
  induction fuel generalizing nodeId with
  | zero => cases hfuel
  | succ fuel ih =>
      intro cache hcache
      rw [collect]
      cases hknown : cache.get? nodeId with
      | some known => exact ⟨known, cache, rfl, hcache, fun _ _ h => h, hknown⟩
      | none =>
          have hps : ∀ p ∈ parents edges nodeId, Collects edges fuel p := by
            intro p hp
            have hstep := isParent_of_mem_parents hp
            obtain ⟨edge, hedge, hsource, -⟩ := id hstep
            have hmem : p ∈ (nodes.map WorkflowNode.id).toFinset := by
              rw [List.mem_toFinset, ← hsource]
              exact (hdeclared edge hedge).1
            have hlt := rank_lt hacyclic hmem hstep
            exact ih (by omega)
          obtain ⟨found, cache', hfold, hexact, hextends, hmem⟩ :=
            foldlM_collectParent hps (d := []) hcache
          refine ⟨found, cache'.set nodeId found, ?_, ?_, ?_, Dict.get?_set_self _ _ _⟩
          · dsimp only
            rw [show (parents edges nodeId).foldlM _ ([], cache) = _ from hfold]
            rfl
          · intro other known hget upstream
            rw [Dict.get?_set] at hget
            split at hget
            case isTrue heq =>
                obtain rfl := Option.some.inj hget
                obtain rfl := eq_of_beq heq
                rw [hmem, isAncestor_iff_parents]
                simp
            case isFalse => exact hexact other known hget upstream
          · intro other known hget
            rw [Dict.get?_set_of_ne]
            · exact hextends other known hget
            · rintro rfl
              rw [hknown] at hget
              cases hget

/-- The ancestors of all nodes of an acyclic graph are found, and nothing else. -/
theorem workflowAncestors_exact (hdeclared : EdgesDeclared nodes edges)
    (hacyclic : Acyclic (IsParent edges)) :
  ∃ ancestors, workflowAncestors nodes edges = .ok ancestors ∧
    ∀ node ∈ nodes, ∃ found, ancestors.get? node.id = some found ∧
      ∀ upstream, upstream ∈ found ↔ IsAncestor edges upstream node.id
  := by
  have hcollects : ∀ nodeId, Collects edges (nodes.length + 1) nodeId := by
    intro nodeId
    apply collects_of_rank hdeclared hacyclic
    have hrank := rank_le_card (r := IsParent edges)
      (s := (nodes.map WorkflowNode.id).toFinset) nodeId
    have hcard := List.toFinset_card_le (nodes.map WorkflowNode.id)
    rw [List.length_map] at hcard
    omega
  have hfold : ∀ (l : List WorkflowNode) (cache : AncestorCache), cache.Exact edges →
      ∃ ancestors, l.foldlM
          (fun cache node => do
            let (_, cache) ← collect edges (nodes.length + 1) node.id cache
            return cache) cache = Except.ok ancestors ∧
        ancestors.Exact edges ∧ cache.Extends ancestors ∧
        ∀ node ∈ l, ∃ found, ancestors.get? node.id = some found := by
    intro l
    induction l with
    | nil => exact fun cache hcache => ⟨cache, rfl, hcache, fun _ _ h => h, by nofun⟩
    | cons node rest ih =>
        intro cache hcache
        obtain ⟨found, filled, hcollect, hfilled, hkept, hget⟩ := hcollects node.id cache hcache
        obtain ⟨ancestors, hrest, hexact, hextends, hall⟩ := ih filled hfilled
        refine ⟨ancestors, ?_, hexact, fun n l hn => hextends n l (hkept n l hn), ?_⟩
        · rw [List.foldlM_cons, hcollect]
          exact hrest
        · rintro other hother
          obtain rfl | hother := List.mem_cons.mp hother
          · exact ⟨found, hextends _ _ hget⟩
          · exact hall other hother
  obtain ⟨ancestors, hall, hexact, -, hmem⟩ := hfold nodes Dict.empty (by
    intro nodeId found hget
    cases (Dict.get?_empty nodeId).symm.trans hget)
  refine ⟨ancestors, hall, ?_⟩
  intro node hnode
  obtain ⟨found, hget⟩ := hmem node hnode
  exact ⟨found, hget, hexact node.id found hget⟩

end Ancestors

/-! ### Accepted workflows -/

namespace WorkflowSpec

variable {rt : WhenRuntime} (spec : WorkflowSpec rt)

theorem edgesDeclared :
  EdgesDeclared spec.nodes spec.edges
  := fun _ hedge => ⟨spec.source_mem hedge, spec.target_mem hedge⟩

/-- The search has found no cycle in an accepted workflow. -/
theorem findCycle_eq_none :
  findCycle spec.nodes spec.edges = .ok none
  := by
  obtain ⟨_, -, h⟩ := Outcome.bind_eq_ok.mp spec.accepted
  obtain ⟨_, -, h⟩ := Outcome.bind_eq_ok.mp h
  obtain ⟨_, -, h⟩ := Outcome.bind_eq_ok.mp h
  obtain ⟨_, -, h⟩ := Outcome.bind_eq_ok.mp h
  obtain ⟨_, -, h⟩ := Outcome.bind_eq_ok.mp h
  obtain ⟨_, -, h⟩ := Outcome.bind_eq_ok.mp h
  obtain ⟨_, -, h⟩ := Outcome.bind_eq_ok.mp h
  obtain ⟨cycle, hfind, h⟩ := Outcome.bind_eq_ok.mp h
  cases cycle with
  | none => exact hfind
  | some cycle => cases h

theorem acyclic :
  Acyclic (IsParent spec.edges)
  := by
  obtain ⟨answer, hfind, hanswer⟩ := findCycle_spec spec.edgesDeclared
  rw [spec.findCycle_eq_none] at hfind
  obtain rfl := Except.ok.inj hfind
  obtain ⟨-, hacyclic⟩ | ⟨_, heq, -⟩ := hanswer
  · exact hacyclic
  · cases heq

theorem kahnComplete_initial :
  KahnComplete spec.nodes spec.edges (initialReady spec.nodes spec.edges) []
  := by
  have hmem : ∀ nodeId, nodeId ∈ initialReady spec.nodes spec.edges ↔
      nodeId ∈ spec.nodes.map WorkflowNode.id ∧ openEdges spec.edges [] nodeId = 0 := by
    intro nodeId
    rw [initialReady, sortReady, (List.perm_insertionSort _ _).mem_iff, List.mem_filter,
      decide_eq_true_iff, degree_initialInDegree, Int.natCast_eq_zero]
  constructor
  · intro nodeId h
    exact ((hmem nodeId).mp h).1
  · intro nodeId hknown hfree
    exact (hmem nodeId).mpr ⟨hknown, hfree⟩

/-- The order of an accepted workflow holds each of its nodes once. -/
theorem topologicalNodes_perm :
  ∃ order, topologicalNodes spec.nodes spec.edges = .ok order ∧ order.Perm spec.nodes
  := by
  obtain ⟨ids, hids, hperm⟩ := kahnLoop_complete spec.edgesDeclared spec.acyclic spec.nodup_ids
    (kahnInvariant_initial spec) spec.kahnComplete_initial
    (by rw [List.length_nil, Nat.zero_add]; exact Nat.lt_succ_self _)
  have hlength : ids.length = spec.nodes.length := by
    rw [hperm.length_eq, List.length_map]
  have hlookup : ∃ order, ids.mapM (lookupNode spec.nodes) = .ok order := by
    have hfound : ∀ nodeId ∈ ids, ∃ node, lookupNode spec.nodes nodeId = .ok node := by
      intro nodeId hmem
      obtain ⟨node, hnode, rfl⟩ := List.mem_map.mp (hperm.mem_iff.mp hmem)
      cases hfind : nodeById? spec.nodes node.id with
      | some found => exact ⟨found, by rw [lookupNode, hfind]⟩
      | none =>
          have hno := List.find?_eq_none.mp hfind node hnode
          simp at hno
    clear hids hperm hlength
    induction ids with
    | nil => exact ⟨[], rfl⟩
    | cons nodeId rest ih =>
        obtain ⟨node, hnode⟩ := hfound nodeId List.mem_cons_self
        obtain ⟨order, horder⟩ :=
          ih (fun other hother => hfound other (List.mem_cons_of_mem _ hother))
        exact ⟨node :: order, by rw [List.mapM_cons, hnode, horder]; rfl⟩
  obtain ⟨order, horder⟩ := hlookup
  have htopological : topologicalNodes spec.nodes spec.edges = .ok order := by
    rw [topologicalNodes, topologicalIds, hids]
    change (if ids.length = spec.nodes.length then _ else _) = _
    rw [if_pos hlength]
    exact horder
  refine ⟨order, htopological, ?_⟩
  obtain ⟨hnodup, hmem⟩ := topologicalNodes_nodup spec htopological
  obtain ⟨hmap, -⟩ := lookupNodes_eq_ok (Outcome.mapM_eq_ok.mp horder)
  have hsubperm := (List.Nodup.of_map _ hnodup).subperm hmem
  have horderLength : order.length = ids.length := by rw [← hmap, List.length_map]
  apply hsubperm.perm_of_length_le
  rw [horderLength, hlength]

end WorkflowSpec

/-- The search for a cycle is right about every graph: it finds nothing exactly when no node comes
before itself, and what it finds is a closed path of edges.  For an accepted workflow, the order
holds each node once and every edge leads forward in it, and the nodes that are collected as
ancestors of a node are those with a path to it. -/
theorem traversals_agree {rt : WhenRuntime} (spec : WorkflowSpec rt) {nodes : List WorkflowNode}
    {edges : List WorkflowEdge} (hdeclared : EdgesDeclared nodes edges) :
  (∃ answer, findCycle nodes edges = .ok answer ∧
    (answer = none ↔ Acyclic (IsParent edges)) ∧
    ∀ cycle, answer = some cycle → IsClosedPath (IsParent edges) cycle) ∧
  (∃ order, topologicalNodes spec.nodes spec.edges = .ok order ∧
    order.Perm spec.nodes ∧ ParentsFirst spec.edges (order.map WorkflowNode.id)) ∧
  ∃ ancestors, workflowAncestors spec.nodes spec.edges = .ok ancestors ∧
    ∀ node ∈ spec.nodes, ∃ found, ancestors.get? node.id = some found ∧
      ∀ upstream, upstream ∈ found ↔ IsAncestor spec.edges upstream node.id
  := by
  refine ⟨?_, ?_, workflowAncestors_exact spec.edgesDeclared spec.acyclic⟩
  · obtain ⟨answer, hfind, ⟨rfl, hacyclic⟩ | ⟨cycle, rfl, hclosed⟩⟩ := findCycle_spec hdeclared
    · exact ⟨none, hfind, ⟨fun _ => hacyclic, fun _ => rfl⟩, nofun⟩
    · refine ⟨some cycle, hfind, ⟨nofun, fun h => absurd h hclosed.not_acyclic⟩, ?_⟩
      rintro _ heq
      obtain rfl := Option.some.inj heq
      exact hclosed
  · obtain ⟨order, horder, hperm⟩ := spec.topologicalNodes_perm
    exact ⟨order, horder, hperm, topologicalNodes_parentsFirst spec horder⟩

/-- Two nodes that wait for each other. -/
def waitingNodes : List WorkflowNode :=
  [{ id := "a".toList, jobKind := .sqlQuery }, { id := "b".toList, jobKind := .sqlQuery }]

/-- The edges between them, one of them twice. -/
def waitingEdges : List WorkflowEdge :=
  [{ source := "a".toList, target := "b".toList }, { source := "b".toList, target := "a".toList },
    { source := "a".toList, target := "b".toList, trigger := .failure }]

theorem traversals_agree_waiting :
  findCycle waitingNodes waitingEdges = .ok (some ["a".toList, "b".toList]) ∧
    IsClosedPath (IsParent waitingEdges) ["a".toList, "b".toList]
  := by
  have hfound : findCycle waitingNodes waitingEdges = .ok (some ["a".toList, "b".toList]) := rfl
  have hdeclared : EdgesDeclared waitingNodes waitingEdges := by
    unfold EdgesDeclared
    decide
  obtain ⟨⟨answer, hfind, -, hclosed⟩, -⟩ := traversals_agree chainSpec hdeclared
  rw [hfound] at hfind
  exact ⟨hfound, hclosed _ (Except.ok.inj hfind).symm⟩

end Workflow
