import DataOpsStudio.Library.Graphs
import DataOpsStudio.Workflow.References
import Mathlib.Algebra.BigOperators.Group.Finset.Piecewise
import Mathlib.Algebra.Order.BigOperators.Group.Finset
import Mathlib.Algebra.Ring.Nat

/-!
# The search for a cycle

The search colours nodes.  The gray nodes are those of the path that is being explored, each
reached from the one below it; what a black node leads to is black, and no black node comes before
itself.  Every round blackens a node or follows an edge, so the search ends, with a closed path of
edges or with all nodes black.
-/

namespace Workflow

open Text Graph

section Search

variable {nodes : List WorkflowNode} {edges : List WorkflowEdge}

/-- Edges lead from declared nodes to declared nodes. -/
def EdgesDeclared (nodes : List WorkflowNode) (edges : List WorkflowEdge) : Prop :=
  ∀ edge ∈ edges, edge.source ∈ nodes.map WorkflowNode.id ∧ edge.target ∈ nodes.map WorkflowNode.id

theorem mem_downstream_iff {nodeId target : Text} :
  target ∈ downstream edges nodeId ↔ IsParent edges nodeId target
  := by
  simp only [downstream, List.mem_map, List.mem_filter, beq_iff_eq, IsParent]
  constructor
  · rintro ⟨edge, ⟨hedge, hsource⟩, htarget⟩
    exact ⟨edge, hedge, hsource, htarget⟩
  · rintro ⟨edge, hedge, hsource, htarget⟩
    exact ⟨edge, ⟨hedge, hsource⟩, htarget⟩

/-- The nodes of the path that is being explored, the last of them first. -/
def CycleSearch.path (search : CycleSearch) : List Text := search.stack.map Prod.fst

/-- What the search keeps, once it has reached some nodes. -/
structure SearchInvariant (nodes : List WorkflowNode) (edges : List WorkflowEdge)
    (reached : Text → Prop) (search : CycleSearch) : Prop where
  known : ∀ n, (∃ c, search.color.get? n = some c) ↔ n ∈ nodes.map WorkflowNode.id
  gray : ∀ n, search.color.get? n = some .gray ↔ n ∈ search.path
  nodup : search.path.Nodup
  chain : search.path.IsChain (fun a b => search.parent.get? a = some b ∧ IsParent edges b a)
  followed : ∀ above a k below, search.stack = above ++ (a, k) :: below →
    ∀ t ∈ (downstream edges a).take k,
      search.color.get? t = some .black ∨ t ∈ above.map Prod.fst
  blackClosed : ∀ b, search.color.get? b = some .black → ∀ t, IsParent edges b t →
    search.color.get? t = some .black
  blackAcyclic : ∀ b, search.color.get? b = some .black → ¬ IsAncestor edges b b
  reachedColored : ∀ n, reached n → search.color.get? n ≠ some .white

namespace SearchInvariant

variable {reached : Text → Prop} {search : CycleSearch} {current : Text} {next : ℕ}
  {rest : List (Text × ℕ)}

theorem black_of_reflTransGen (h : SearchInvariant nodes edges reached search) {b t : Text}
    (hb : search.color.get? b = some .black) (hpath : Relation.ReflTransGen (IsParent edges) b t) :
  search.color.get? t = some .black
  := by
  induction hpath with
  | refl => exact hb
  | tail _ hstep ih => exact h.blackClosed _ ih _ hstep

/-- A node all of whose edges have been followed becomes black. -/
theorem pop (h : SearchInvariant nodes edges reached search)
    (hstack : search.stack = (current, next) :: rest)
    (hall : (downstream edges current).length ≤ next) :
  SearchInvariant nodes edges reached
    { search with color := search.color.set current .black, stack := rest }
  := by
  have hpath : search.path = current :: rest.map Prod.fst := by rw [CycleSearch.path, hstack]; rfl
  have hgray : search.color.get? current = some .gray :=
    (h.gray current).mpr (hpath ▸ List.mem_cons_self)
  have hnodup := h.nodup
  rw [hpath, List.nodup_cons] at hnodup
  have htargets : ∀ t, IsParent edges current t → search.color.get? t = some .black := by
    intro t ht
    have hmem : t ∈ (downstream edges current).take next := by
      rw [List.take_of_length_le hall]
      exact mem_downstream_iff.mpr ht
    obtain hblack | hmem := h.followed [] current next rest hstack t hmem
    · exact hblack
    · cases hmem
  have hget : ∀ n, (search.color.set current Color.black).get? n
      = if current = n then some .black else search.color.get? n := by
    intro n
    rw [Dict.get?_set]
    simp only [beq_iff_eq]
  have hblack : ∀ n, search.color.get? n = some .black →
      (search.color.set current Color.black).get? n = some .black := by
    intro n hn
    rw [hget]
    split
    · rfl
    · exact hn
  refine ⟨?_, ?_, hnodup.2, ?_, ?_, ?_, ?_, ?_⟩
  · intro n
    rw [hget]
    split
    · rename_i heq
      subst heq
      have := (h.known current).mp ⟨_, hgray⟩
      simp [this]
    · exact h.known n
  · intro n
    rw [hget]
    change _ ↔ n ∈ rest.map Prod.fst
    split
    · rename_i heq
      subst heq
      constructor
      · intro heq
        cases heq
      · intro hmem
        exact absurd hmem hnodup.1
    · rename_i hne
      rw [h.gray, hpath, List.mem_cons]
      constructor
      · rintro (rfl | hmem)
        · exact absurd rfl hne
        · exact hmem
      · exact Or.inr
  · have hchain := h.chain
    rw [hpath] at hchain
    exact hchain.tail
  · intro above a k below hsplit t ht
    have hsplit' : search.stack = ((current, next) :: above) ++ (a, k) :: below := by
      rw [hstack, List.cons_append]
      congr 1
    obtain hold | hmem := h.followed _ a k below hsplit' t ht
    · exact Or.inl (hblack t hold)
    · obtain rfl | hmem := List.mem_cons.mp hmem
      · left
        rw [hget, if_pos rfl]
      · exact Or.inr hmem
  · intro b hb t ht
    rw [hget] at hb
    apply hblack
    split at hb
    · rename_i heq
      subst heq
      exact htargets t ht
    · exact h.blackClosed b hb t ht
  · intro b hb
    rw [hget] at hb
    split at hb
    · rename_i heq
      subst heq
      intro hcycle
      obtain ⟨t, hstep, hpath⟩ := Relation.TransGen.head'_iff.mp hcycle
      have hself := h.black_of_reflTransGen (htargets t hstep) hpath
      rw [hgray] at hself
      cases hself
    · exact h.blackAcyclic b hb
  · intro n hn
    rw [hget]
    split
    · exact fun heq => by cases heq
    · exact h.reachedColored n hn

theorem path_eq (hstack : search.stack = (current, next) :: rest) :
  search.path = current :: rest.map Prod.fst
  := by
  rw [CycleSearch.path, hstack]
  rfl

/-- A node that has not been reached is put on the path. -/
theorem push (h : SearchInvariant nodes edges reached search)
    (hstack : search.stack = (current, next) :: rest) {neighbor : Text}
    (hneighbor : (downstream edges current)[next]? = some neighbor)
    (hwhite : search.color.get? neighbor = some .white) :
  SearchInvariant nodes edges reached
    { color := search.color.set neighbor .gray
      parent := search.parent.set neighbor current
      stack := (neighbor, 0) :: (current, next + 1) :: rest }
  := by
  have hpath := path_eq hstack
  have hget : ∀ n, (search.color.set neighbor Color.gray).get? n
      = if neighbor = n then some .gray else search.color.get? n := by
    intro n
    rw [Dict.get?_set]
    simp only [beq_iff_eq]
  have hnew : neighbor ∉ search.path := by
    intro hmem
    have hgray := (h.gray neighbor).mpr hmem
    rw [hwhite] at hgray
    cases hgray
  have hblack : ∀ n, search.color.get? n = some .black →
      (search.color.set neighbor Color.gray).get? n = some .black := by
    intro n hn
    rw [hget, if_neg]
    · exact hn
    · rintro rfl
      rw [hwhite] at hn
      cases hn
  have hold : ∀ n, (search.color.set neighbor Color.gray).get? n = some .black →
      search.color.get? n = some .black := by
    intro n hn
    rw [hget] at hn
    split at hn
    · cases hn
    · exact hn
  have hstep : IsParent edges current neighbor :=
    mem_downstream_iff.mp (List.mem_of_getElem? hneighbor)
  refine ⟨?_, ?_, ?_, ?_, ?_, ?_, ?_, ?_⟩
  · intro n
    rw [hget]
    split
    · rename_i heq
      subst heq
      have := (h.known neighbor).mp ⟨_, hwhite⟩
      simp [this]
    · exact h.known n
  · intro n
    rw [hget]
    change _ ↔ n ∈ neighbor :: current :: rest.map Prod.fst
    rw [← hpath, List.mem_cons, ← h.gray]
    split
    · rename_i heq
      simp [heq]
    · rename_i hne
      constructor
      · exact Or.inr
      · rintro (rfl | hgray)
        · exact absurd rfl hne
        · exact hgray
  · change (neighbor :: current :: rest.map Prod.fst).Nodup
    rw [← hpath]
    exact List.nodup_cons.mpr ⟨hnew, h.nodup⟩
  · change (neighbor :: current :: rest.map Prod.fst).IsChain _
    rw [List.isChain_cons_cons]
    refine ⟨⟨Dict.get?_set_self _ _ _, hstep⟩, ?_⟩
    rw [← hpath]
    apply h.chain.imp_of_mem_imp
    intro a b ha hb hab
    refine ⟨?_, hab.2⟩
    rw [Dict.get?_set_of_ne]
    · exact hab.1
    · rintro rfl
      exact hnew ha
  · intro above a k below hsplit t ht
    cases above with
    | nil =>
        obtain ⟨heq, -⟩ := List.cons.inj hsplit
        obtain ⟨-, rfl⟩ := Prod.mk.inj heq
        cases ht
    | cons top above =>
        obtain ⟨rfl, hsplit'⟩ := List.cons.inj hsplit
        cases above with
        | nil =>
            obtain ⟨heq, rfl⟩ := List.cons.inj hsplit'
            obtain ⟨rfl, rfl⟩ := Prod.mk.inj heq
            rw [List.take_add_one, hneighbor] at ht
            obtain ht | ht := List.mem_append.mp ht
            · obtain hold | hmem := h.followed [] current next rest hstack t ht
              · exact Or.inl (hblack t hold)
              · cases hmem
            · obtain rfl := List.mem_singleton.mp ht
              exact Or.inr List.mem_cons_self
        | cons second above =>
            obtain ⟨rfl, rfl⟩ := List.cons.inj hsplit'
            obtain hold | hmem := h.followed ((current, next) :: above) a k below hstack t ht
            · exact Or.inl (hblack t hold)
            · right
              exact List.mem_cons_of_mem _ hmem
  · intro b hb t ht
    exact hblack t (h.blackClosed b (hold b hb) t ht)
  · intro b hb
    exact h.blackAcyclic b (hold b hb)
  · intro n hn
    rw [hget]
    split
    · exact fun heq => by cases heq
    · exact h.reachedColored n hn

/-- An edge to a black node is only counted. -/
theorem skip (h : SearchInvariant nodes edges reached search)
    (hstack : search.stack = (current, next) :: rest) {neighbor : Text}
    (hneighbor : (downstream edges current)[next]? = some neighbor)
    (hblack : search.color.get? neighbor = some .black) :
  SearchInvariant nodes edges reached { search with stack := (current, next + 1) :: rest }
  := by
  have hpath : CycleSearch.path { search with stack := (current, next + 1) :: rest }
      = search.path := (path_eq hstack).symm
  refine ⟨h.known, ?_, ?_, ?_, ?_, h.blackClosed, h.blackAcyclic, h.reachedColored⟩
  · rw [hpath]
    exact h.gray
  · rw [hpath]
    exact h.nodup
  · rw [hpath]
    exact h.chain
  · intro above a k below hsplit t ht
    cases above with
    | nil =>
        obtain ⟨heq, rfl⟩ := List.cons.inj hsplit
        obtain ⟨rfl, rfl⟩ := Prod.mk.inj heq
        rw [List.take_add_one, hneighbor] at ht
        obtain ht | ht := List.mem_append.mp ht
        · exact h.followed [] current next rest hstack t ht
        · obtain rfl := List.mem_singleton.mp ht
          exact Or.inl hblack
    | cons top above =>
        obtain ⟨rfl, rfl⟩ := List.cons.inj hsplit
        exact h.followed ((current, next) :: above) a k below hstack t ht

end SearchInvariant

/-! ### The path that is returned -/

/-- The path back to a node of the path that is being explored leads along edges. -/
theorem pathBack_eq_some {parent : Dict Text Text} {stop walker : Text} {rest : List Text}
    (hchain : (walker :: rest).IsChain (fun a b => parent.get? a = some b ∧ IsParent edges b a))
    (hstop : stop ∈ walker :: rest) {fuel : ℕ} (hfuel : rest.length < fuel) {tail : List Text}
    (htail : (walker :: tail).IsChain (IsParent edges)) :
  ∃ path, pathBack parent stop fuel walker (walker :: tail) = some (stop :: path) ∧
    (stop :: path).IsChain (IsParent edges) ∧
    (stop :: path).getLast? = (walker :: tail).getLast?
  := by
  induction rest generalizing walker fuel tail with
  | nil =>
      obtain ⟨fuel, rfl⟩ := Nat.exists_eq_succ_of_ne_zero (Nat.ne_zero_of_lt hfuel)
      obtain rfl := List.mem_singleton.mp hstop
      exact ⟨tail, by rw [pathBack, if_pos rfl], htail, rfl⟩
  | cons previous rest ih =>
      obtain ⟨fuel, rfl⟩ := Nat.exists_eq_succ_of_ne_zero (Nat.ne_zero_of_lt hfuel)
      by_cases heq : walker = stop
      · subst heq
        exact ⟨tail, by rw [pathBack, if_pos rfl], htail, rfl⟩
      · obtain ⟨⟨hparent, hstep⟩, hrest⟩ := List.isChain_cons_cons.mp hchain
        obtain hstop | hstop := List.mem_cons.mp hstop
        · exact absurd hstop.symm heq
        · rw [List.length_cons] at hfuel
          have hextended : (previous :: walker :: tail).IsChain (IsParent edges) :=
            List.isChain_cons_cons.mpr ⟨hstep, htail⟩
          obtain ⟨path, hpath, hclosed, hlast⟩ :=
            ih hrest hstop (Nat.lt_of_succ_lt_succ hfuel) hextended
          refine ⟨path, ?_, hclosed, ?_⟩
          · rw [pathBack, if_neg heq, hparent]
            exact hpath
          · rw [hlast, List.getLast?_cons_cons]

/-! ### The rounds that are left -/

/-- How many edges from a node of the path have been followed. -/
def followedFrom (stack : List (Text × ℕ)) (n : Text) : ℕ :=
  ((stack.find? (fun p => p.1 == n)).map Prod.snd).getD 0

/-- The rounds that are left for a node: one for each edge to be followed and one to blacken it. -/
def roundsFor (edges : List WorkflowEdge) (search : CycleSearch) (n : Text) : ℕ :=
  match search.color.get? n with
  | some .white => 1 + (downstream edges n).length
  | some .gray => 1 + ((downstream edges n).length - followedFrom search.stack n)
  | _ => 0

/-- The rounds that are left. -/
def roundsLeft (nodes : List WorkflowNode) (edges : List WorkflowEdge) (search : CycleSearch) : ℕ :=
  ∑ n ∈ (nodes.map WorkflowNode.id).toFinset, roundsFor edges search n

theorem followedFrom_cons_self (n : Text) (k : ℕ) (stack : List (Text × ℕ)) :
  followedFrom ((n, k) :: stack) n = k
  := by simp [followedFrom]

theorem followedFrom_cons_of_ne {m n : Text} (h : m ≠ n) (k : ℕ) (stack : List (Text × ℕ)) :
  followedFrom ((m, k) :: stack) n = followedFrom stack n
  := by
  have hne : (m == n) = false := beq_eq_false_iff_ne.mpr h
  rw [followedFrom, List.find?_cons]
  simp only [hne]
  rfl

theorem roundsFor_le (search : CycleSearch) (n : Text) :
  roundsFor edges search n ≤ 1 + (downstream edges n).length
  := by
  rw [roundsFor]
  split
  · exact Nat.le_refl _
  · omega
  · omega

theorem sum_length_downstream_le (s : Finset Text) :
  ∑ n ∈ s, (downstream edges n).length ≤ edges.length
  := by
  induction edges with
  | nil => simp [downstream]
  | cons edge rest ih =>
      have hlength : ∀ n, (downstream (edge :: rest) n).length
          = (if edge.source = n then 1 else 0) + (downstream rest n).length := by
        intro n
        by_cases hn : edge.source = n
        · simp [downstream, hn, Nat.add_comm]
        · simp [downstream, hn]
      simp only [hlength, Finset.sum_add_distrib, Finset.sum_ite_eq, List.length_cons]
      split <;> omega

/-- The rounds of a whole search. -/
theorem roundsLeft_lt (search : CycleSearch) :
  roundsLeft nodes edges search < searchFuel nodes edges
  := by
  have hnodes := List.toFinset_card_le (nodes.map WorkflowNode.id)
  have hedges : ∑ n ∈ (nodes.map WorkflowNode.id).toFinset, (downstream edges n).length
      ≤ edges.length := sum_length_downstream_le _
  have hall : roundsLeft nodes edges search
      ≤ ∑ n ∈ (nodes.map WorkflowNode.id).toFinset, (1 + (downstream edges n).length) :=
    Finset.sum_le_sum (fun n _ => roundsFor_le search n)
  rw [Finset.sum_add_distrib, ← Finset.card_eq_sum_ones] at hall
  rw [List.length_map] at hnodes
  rw [searchFuel]
  omega

/-- A round that leaves less for one node, and not more for the others, leaves less. -/
theorem roundsLeft_lt_of {search search' : CycleSearch} {current : Text}
    (hmem : current ∈ nodes.map WorkflowNode.id)
    (hcurrent : roundsFor edges search' current < roundsFor edges search current)
    (hothers : ∀ n, n ≠ current → roundsFor edges search' n ≤ roundsFor edges search n) :
  roundsLeft nodes edges search' < roundsLeft nodes edges search
  := by
  apply Finset.sum_lt_sum
  · intro n _
    by_cases hn : n = current
    · rw [hn]
      exact Nat.le_of_lt hcurrent
    · exact hothers n hn
  · exact ⟨current, List.mem_toFinset.mpr hmem, hcurrent⟩

/-- A round of the search finds a closed path, or keeps the invariant and leaves less to do. -/
theorem searchRound_spec {reached : Text → Prop} {search : CycleSearch} {current : Text} {next : ℕ}
    {rest : List (Text × ℕ)} (hdeclared : EdgesDeclared nodes edges)
    (h : SearchInvariant nodes edges reached search)
    (hstack : search.stack = (current, next) :: rest) :
  (∃ cycle, searchRound nodes edges search current next rest = .ok (.inl cycle) ∧
    IsClosedPath (IsParent edges) cycle) ∨
  ∃ search', searchRound nodes edges search current next rest = .ok (.inr search') ∧
    SearchInvariant nodes edges reached search' ∧
    roundsLeft nodes edges search' < roundsLeft nodes edges search
  := by
  have hpath := SearchInvariant.path_eq hstack
  have hgray : search.color.get? current = some .gray :=
    (h.gray current).mpr (hpath ▸ List.mem_cons_self)
  have hmem : current ∈ nodes.map WorkflowNode.id := (h.known current).mp ⟨_, hgray⟩
  have hbefore : roundsFor edges search current
      = 1 + ((downstream edges current).length - next) := by
    rw [roundsFor, hgray, hstack]
    simp only [followedFrom_cons_self]
  cases hneighbor : (downstream edges current)[next]? with
  | none =>
      right
      have hlength := List.getElem?_eq_none_iff.mp hneighbor
      refine ⟨_, by rw [searchRound, hneighbor], h.pop hstack hlength, ?_⟩
      apply roundsLeft_lt_of hmem
      · rw [hbefore, roundsFor]
        simp only [Dict.get?_set_self]
        omega
      · intro n hn
        rw [roundsFor, roundsFor]
        simp only [Dict.get?_set_of_ne _ _ (Ne.symm hn), hstack,
          followedFrom_cons_of_ne (Ne.symm hn)]
        exact Nat.le_refl _
  | some neighbor =>
      have hlt : next < (downstream edges current).length :=
        (List.getElem?_eq_some_iff.mp hneighbor).1
      have hstep : IsParent edges current neighbor :=
        mem_downstream_iff.mp (List.mem_of_getElem? hneighbor)
      obtain ⟨edge, hedge, -, htarget⟩ := hstep
      obtain ⟨color, hcolor⟩ := (h.known neighbor).mpr (htarget ▸ (hdeclared edge hedge).2)
      cases color with
      | white =>
          right
          have hne : neighbor ≠ current := by
            rintro rfl
            rw [hgray] at hcolor
            cases hcolor
          refine ⟨_, by rw [searchRound, hneighbor]; simp only [hcolor],
            h.push hstack hneighbor hcolor, ?_⟩
          apply roundsLeft_lt_of hmem
          · rw [hbefore, roundsFor]
            simp only [Dict.get?_set_of_ne _ _ hne, hgray, followedFrom_cons_of_ne hne,
              followedFrom_cons_self]
            omega
          · intro n hn
            by_cases heq : neighbor = n
            · subst heq
              rw [roundsFor, roundsFor]
              simp only [Dict.get?_set_self, followedFrom_cons_self, hcolor]
              omega
            · rw [roundsFor, roundsFor]
              simp only [Dict.get?_set_of_ne _ _ heq, hstack, followedFrom_cons_of_ne heq,
                followedFrom_cons_of_ne (Ne.symm hn)]
              exact Nat.le_refl _
      | gray =>
          left
          have hchain := h.chain
          have hin := (h.gray neighbor).mp hcolor
          rw [hpath] at hchain hin
          have hlength : (rest.map Prod.fst).length < nodes.length + 1 := by
            have hsubset : search.path ⊆ nodes.map WorkflowNode.id := by
              intro n hn
              exact (h.known n).mp ⟨_, (h.gray n).mpr hn⟩
            have hle := (h.nodup.subperm hsubset).length_le
            simp only [hpath, List.length_cons, List.length_map] at hle ⊢
            omega
          obtain ⟨path, hback, hclosed, hlast⟩ :=
            pathBack_eq_some hchain hin hlength (List.isChain_singleton current)
          refine ⟨neighbor :: path, ?_, ⟨List.cons_ne_nil _ _, hclosed, ?_⟩⟩
          · rw [searchRound, hneighbor]
            simp only [hcolor, hback]
          · rw [List.getLast?_eq_some_getLast (List.cons_ne_nil _ _)] at hlast
            have hcurrent : (neighbor :: path).getLast (List.cons_ne_nil _ _) = current :=
              Option.some.inj hlast
            rw [hcurrent]
            exact mem_downstream_iff.mp (List.mem_of_getElem? hneighbor)
      | black =>
          right
          refine ⟨_, by rw [searchRound, hneighbor]; simp only [hcolor],
            h.skip hstack hneighbor hcolor, ?_⟩
          apply roundsLeft_lt_of hmem
          · rw [hbefore, roundsFor]
            simp only [hgray, followedFrom_cons_self]
            omega
          · intro n hn
            rw [roundsFor, roundsFor]
            simp only [hstack, followedFrom_cons_of_ne (Ne.symm hn)]
            exact Nat.le_refl _

/-! ### The whole search -/

/-- What a search has come to: a closed path, or a state in which no path is being explored. -/
def Explored (nodes : List WorkflowNode) (edges : List WorkflowEdge) (reached : Text → Prop) :
    List Text ⊕ CycleSearch → Prop
  | .inl cycle => IsClosedPath (IsParent edges) cycle
  | .inr search => SearchInvariant nodes edges reached search ∧ search.stack = []

theorem exploreFrom_spec {reached : Text → Prop} {search : CycleSearch} {fuel : ℕ}
    (hdeclared : EdgesDeclared nodes edges) (h : SearchInvariant nodes edges reached search)
    (hfuel : roundsLeft nodes edges search < fuel) :
  ∃ result, exploreFrom nodes edges fuel search = .ok result ∧
    Explored nodes edges reached result
  := by
  induction fuel generalizing search with
  | zero => cases hfuel
  | succ fuel ih =>
      rw [exploreFrom]
      cases hstack : search.stack with
      | nil => exact ⟨.inr search, rfl, h, hstack⟩
      | cons top rest =>
          obtain ⟨current, next⟩ := top
          obtain ⟨cycle, hround, hclosed⟩ | ⟨search', hround, hkept, hless⟩ :=
            searchRound_spec hdeclared h hstack
          · exact ⟨.inl cycle, by simp only [hround]; rfl, hclosed⟩
          · obtain ⟨result, hexplore, hresult⟩ := ih hkept (by omega)
            refine ⟨result, ?_, hresult⟩
            simp only [hround]
            exact hexplore

/-- Without a path that is being explored, a node that is not white is black. -/
theorem SearchInvariant.black_of_idle {reached : Text → Prop} {search : CycleSearch}
    (h : SearchInvariant nodes edges reached search) (hidle : search.stack = []) {n : Text}
    (hknown : n ∈ nodes.map WorkflowNode.id) (hcolor : search.color.get? n ≠ some .white) :
  search.color.get? n = some .black
  := by
  obtain ⟨color, hget⟩ := (h.known n).mpr hknown
  cases color with
  | white => exact absurd hget hcolor
  | gray =>
      have hmem := (h.gray n).mp hget
      rw [CycleSearch.path, hidle] at hmem
      cases hmem
  | black => exact hget

/-- A path is begun with a node that has not been reached. -/
theorem SearchInvariant.start {reached : Text → Prop} {search : CycleSearch} {n : Text}
    (h : SearchInvariant nodes edges reached search) (hidle : search.stack = [])
    (hwhite : search.color.get? n = some .white) :
  SearchInvariant nodes edges (fun m => m = n ∨ reached m)
    { search with color := search.color.set n .gray, stack := [(n, 0)] }
  := by
  have hget : ∀ m, (search.color.set n Color.gray).get? m
      = if n = m then some .gray else search.color.get? m := by
    intro m
    rw [Dict.get?_set]
    simp only [beq_iff_eq]
  have hblack : ∀ m, (search.color.set n Color.gray).get? m = some .black ↔
      search.color.get? m = some .black := by
    intro m
    rw [hget]
    split
    · rename_i heq
      subst heq
      simp [hwhite]
    · rfl
  refine ⟨?_, ?_, ?_, ?_, ?_, ?_, ?_, ?_⟩
  · intro m
    rw [hget]
    split
    · rename_i heq
      subst heq
      have := (h.known n).mp ⟨_, hwhite⟩
      simp [this]
    · exact h.known m
  · intro m
    rw [hget]
    change _ ↔ m ∈ [n]
    rw [List.mem_singleton]
    split
    · rename_i heq
      simp [heq]
    · rename_i hne
      rw [h.gray, CycleSearch.path, hidle]
      constructor
      · intro hmem
        cases hmem
      · rintro rfl
        exact absurd rfl hne
  · exact List.nodup_singleton n
  · exact List.isChain_singleton n
  · intro above a k below hsplit t ht
    obtain ⟨rfl, heq⟩ | ⟨_, rfl, hnil⟩ := List.append_eq_cons_iff.mp hsplit.symm
    · obtain ⟨heq, -⟩ := List.cons.inj heq
      obtain ⟨-, rfl⟩ := Prod.mk.inj heq
      cases ht
    · simp at hnil
  · intro b hb t ht
    exact (hblack t).mpr (h.blackClosed b ((hblack b).mp hb) t ht)
  · intro b hb
    exact h.blackAcyclic b ((hblack b).mp hb)
  · rintro m (rfl | hm)
    · rw [hget, if_pos rfl]
      exact fun heq => by cases heq
    · rw [hget]
      split
      · exact fun heq => by cases heq
      · exact h.reachedColored m hm

/-- More nodes count as reached when they have a colour. -/
theorem SearchInvariant.reach {reached : Text → Prop} {search : CycleSearch} {n : Text}
    (h : SearchInvariant nodes edges reached search)
    (hcolor : search.color.get? n ≠ some .white) :
  SearchInvariant nodes edges (fun m => m = n ∨ reached m) search
  := by
  refine ⟨h.known, h.gray, h.nodup, h.chain, h.followed, h.blackClosed, h.blackAcyclic, ?_⟩
  rintro m (rfl | hm)
  · exact hcolor
  · exact h.reachedColored m hm

/-- What the search answers: a closed path, or nothing when the nodes come in no circle. -/
def Answers (edges : List WorkflowEdge) (answer : Option (List Text)) (acyclic : Prop) : Prop :=
  (answer = none ∧ acyclic) ∨ ∃ cycle, answer = some cycle ∧ IsClosedPath (IsParent edges) cycle

theorem findCycleFrom_spec {reached : Text → Prop} {search : CycleSearch} {starts : List Text}
    (hdeclared : EdgesDeclared nodes edges) (h : SearchInvariant nodes edges reached search)
    (hidle : search.stack = []) :
  ∃ answer, findCycleFrom nodes edges starts search = .ok answer ∧
    Answers edges answer (∀ n, n ∈ nodes.map WorkflowNode.id → n ∈ starts ∨ reached n →
      ¬ IsAncestor edges n n)
  := by
  induction starts generalizing search reached with
  | nil =>
      refine ⟨none, rfl, .inl ⟨rfl, ?_⟩⟩
      rintro n hknown (hmem | hreached)
      · cases hmem
      · exact h.blackAcyclic n (h.black_of_idle hidle hknown (h.reachedColored n hreached))
  | cons start rest ih =>
      have hmore : ∀ {answer : Option (List Text)},
          Answers edges answer (∀ n, n ∈ nodes.map WorkflowNode.id →
            n ∈ rest ∨ (n = start ∨ reached n) → ¬ IsAncestor edges n n) →
          Answers edges answer (∀ n, n ∈ nodes.map WorkflowNode.id →
            n ∈ start :: rest ∨ reached n → ¬ IsAncestor edges n n) := by
        rintro answer (⟨hnone, hacyclic⟩ | hcycle)
        · refine .inl ⟨hnone, ?_⟩
          intro n hknown hn
          apply hacyclic n hknown
          rw [List.mem_cons] at hn
          tauto
        · exact .inr hcycle
      rw [findCycleFrom]
      by_cases hwhite : search.color.get? start = some .white
      · rw [if_pos hwhite]
        obtain ⟨result, hexplore, hresult⟩ :=
          exploreFrom_spec hdeclared (h.start hidle hwhite) (roundsLeft_lt _)
        cases result with
        | inl cycle => exact ⟨some cycle, by simp only [hexplore]; rfl, .inr ⟨cycle, rfl, hresult⟩⟩
        | inr search' =>
            obtain ⟨answer, hfind, hanswer⟩ := ih hresult.1 hresult.2
            refine ⟨answer, ?_, hmore hanswer⟩
            simp only [hexplore]
            exact hfind
      · rw [if_neg hwhite]
        obtain ⟨answer, hfind, hanswer⟩ := ih (h.reach hwhite) hidle
        exact ⟨answer, hfind, hmore hanswer⟩

/-- The search begins with white nodes only. -/
theorem searchInvariant_initial :
  SearchInvariant nodes edges (fun _ => False)
    { color := Dict.ofList (nodes.map (fun node => (node.id, Color.white)))
      parent := Dict.empty
      stack := [] }
  := by
  have hwhite : ∀ {n : Text} {c : Color},
      (Dict.ofList (nodes.map (fun node => (node.id, Color.white)))).get? n = some c →
      n ∈ nodes.map WorkflowNode.id ∧ c = .white := by
    intro n c hget
    obtain ⟨node, hnode, hitem⟩ := List.mem_map.mp (Dict.mem_of_get?_ofList hget)
    obtain ⟨rfl, rfl⟩ := Prod.mk.inj hitem
    exact ⟨List.mem_map_of_mem hnode, rfl⟩
  refine ⟨?_, ?_, List.nodup_nil, List.isChain_nil, ?_, ?_, ?_, fun _ h => h.elim⟩
  · intro n
    constructor
    · rintro ⟨c, hget⟩
      exact (hwhite hget).1
    · intro hmem
      apply Dict.exists_get?_ofList
      rw [List.map_map]
      exact hmem
  · intro n
    constructor
    · intro hget
      cases (hwhite hget).2
    · intro hmem
      cases hmem
  · intro above a k below hsplit
    cases above <;> cases hsplit
  · intro b hb
    cases (hwhite hb).2
  · intro b hb
    cases (hwhite hb).2

/-- The search for a cycle ends: with a closed path of edges, or without one when no node comes
before itself. -/
theorem findCycle_spec (hdeclared : EdgesDeclared nodes edges) :
  ∃ answer, findCycle nodes edges = .ok answer ∧ Answers edges answer (Acyclic (IsParent edges))
  := by
  obtain ⟨answer, hfind, hanswer⟩ := findCycleFrom_spec hdeclared searchInvariant_initial rfl
  refine ⟨answer, hfind, ?_⟩
  obtain ⟨hnone, hacyclic⟩ | hcycle := hanswer
  · refine .inl ⟨hnone, ?_⟩
    intro n hloop
    obtain ⟨_, ⟨edge, hedge, rfl, -⟩, -⟩ := Relation.TransGen.head'_iff.mp hloop
    exact hacyclic _ (hdeclared edge hedge).1 (.inl (hdeclared edge hedge).1) hloop
  · exact .inr hcycle

end Search

end Workflow
