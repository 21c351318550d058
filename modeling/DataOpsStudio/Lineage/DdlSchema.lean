import DataOpsStudio.Library.Dict
import DataOpsStudio.Library.Text

/-!
# Tables from data definitions

The tables that are read from data definitions are added to those that are known from the
databases.  Names are compared in lower case, and stored as they are written.  A known table stays
as it is unless several schemas have one name in lower case: of these only the last one is asked
which tables it has.
-/

namespace Lineage

open Text

/-- The columns of a table with their types, in order. -/
abbrev Columns := Dict Text Text

/-- The tables of a schema, by name. -/
abbrev Tables := Dict Text Columns

/-- The tables that are known, by schema. -/
abbrev LineageSchema := Dict Text Tables

/-- The columns of a table in a schema. -/
def LineageSchema.table? (schema : LineageSchema) (schemaName tableName : Text) : Option Columns :=
  (schema.get? schemaName).bind (fun tables => tables.get? tableName)

/-- Stores a table in a schema, which is there afterwards. -/
def LineageSchema.setTable (schema : LineageSchema) (schemaName tableName : Text)
    (columns : Columns) : LineageSchema :=
  schema.set schemaName (((schema.get? schemaName).getD Dict.empty).set tableName columns)

section Merge

variable (lower : Text → Text)

/-- The names of the tables of each schema, in lower case.  The last of several schemas of one name
counts. -/
def loweredIndex (base : LineageSchema) : Dict Text (List Text) :=
  Dict.ofList (base.items.map (fun item => (lower item.1, item.2.keys.map lower)))

/-- The names of tables that are known in some schema. -/
def cachedTableNames (base : LineageSchema) : List Text := (loweredIndex lower base).values.flatten

/-- The key that a name is stored under, in whatever case it is written. -/
def caseKey (mapping : LineageSchema) (name : Text) : Text :=
  if mapping.contains name then name
  else (mapping.keys.find? (fun key => lower key == lower name)).getD name

/-- Whether a table of a data definition is left out since it is known. -/
def shadowed (base : LineageSchema) (schemaName tableName : Text) : Bool :=
  (((loweredIndex lower base).get? (lower schemaName)).getD []).contains (lower tableName)
    || schemaName.isEmpty && (cachedTableNames lower base).contains (lower tableName)

/-- Adds a table of a data definition, unless it is known. -/
def mergeTable (base : LineageSchema) (schemaName targetKey : Text) (merged : LineageSchema)
    (table : Text × Columns) : LineageSchema :=
  if shadowed lower base schemaName table.1 then merged
  else merged.setTable targetKey table.1 table.2

/-- Adds the tables of a schema that are not known. -/
def mergeTables (base merged : LineageSchema) (item : Text × Tables) : LineageSchema :=
  item.2.items.foldl (mergeTable lower base item.1 (caseKey lower merged item.1)) merged

/-- The tables that are known with those of data definitions. -/
def mergeDdlSchema (base ddl : LineageSchema) : LineageSchema :=
  ddl.items.foldl (mergeTables lower base) base

end Merge

/-! ### What a table is after an addition -/

theorem LineageSchema.table?_setTable (schema : LineageSchema) (s t s' t' : Text)
    (columns : Columns) :
  (schema.setTable s t columns).table? s' t'
    = if s = s' ∧ t = t' then some columns else schema.table? s' t'
  := by
  rw [LineageSchema.table?, LineageSchema.setTable, Dict.get?_set]
  by_cases hs : s = s'
  · subst hs
    rw [if_pos (beq_self_eq_true s), Option.bind_some, Dict.get?_set, LineageSchema.table?]
    by_cases ht : t = t'
    · rw [if_pos (beq_iff_eq.mpr ht), if_pos ⟨rfl, ht⟩]
    · rw [if_neg (fun h => ht (eq_of_beq h)), if_neg (fun h => ht h.2)]
      cases schema.get? s with
      | none => rfl
      | some tables => rfl
  · rw [if_neg (fun h => hs (eq_of_beq h)), if_neg (fun h => hs h.1), LineageSchema.table?]

theorem LineageSchema.mem_keys_of_table? {schema : LineageSchema} {s t : Text} {columns : Columns}
    (h : schema.table? s t = some columns) :
  s ∈ schema.keys
  := by
  obtain ⟨tables, htables, -⟩ := Option.bind_eq_some_iff.mp h
  exact Dict.mem_keys_iff.mpr ⟨tables, htables⟩

section Merged

variable {lower : Text → Text} {base : LineageSchema}

theorem table?_foldl_mergeTable {schemaName targetKey : Text} (s t : Text)
    {items : List (Text × Columns)} (hdistinct : items.Pairwise (fun p q => (p.1 == q.1) = false))
    (merged : LineageSchema) :
  (items.foldl (mergeTable lower base schemaName targetKey) merged).table? s t
    = if targetKey = s ∧ shadowed lower base schemaName t = false then
        (Dict.lookup items t).or (merged.table? s t)
      else merged.table? s t
  := by
  induction items generalizing merged with
  | nil => simp [Dict.lookup_nil]
  | cons item items ih =>
      obtain ⟨hitem, hitems⟩ := List.pairwise_cons.mp hdistinct
      rw [List.foldl_cons, ih hitems, Dict.lookup_cons, mergeTable]
      by_cases htable : item.1 = t
      · subst htable
        have hlookup : Dict.lookup items item.1 = none := by
          rw [Dict.lookup_eq_none]
          intro p hp
          rw [BEq.comm]
          exact hitem p hp
        rw [hlookup, Option.none_or, if_pos (beq_self_eq_true item.1), Option.some_or]
        by_cases hshadowed : shadowed lower base schemaName item.1 = true
        · simp [hshadowed]
        · simp only [Bool.not_eq_true] at hshadowed
          simp [hshadowed, LineageSchema.table?_setTable]
      · rw [if_neg (fun h => htable (eq_of_beq h))]
        by_cases hshadowed : shadowed lower base schemaName item.1 = true
        · rw [if_pos hshadowed]
        · rw [if_neg hshadowed, LineageSchema.table?_setTable,
            if_neg (c := targetKey = s ∧ item.1 = t) (fun h => htable h.2)]

theorem table?_mergeTables (merged : LineageSchema) (item : Text × Tables) (s t : Text) :
  (mergeTables lower base merged item).table? s t
    = if caseKey lower merged item.1 = s ∧ shadowed lower base item.1 t = false then
        (item.2.get? t).or (merged.table? s t)
      else merged.table? s t :=
  table?_foldl_mergeTable s t item.2.distinct merged

/-! ### The schemas that a merge adds -/

/-- A merge has kept the schemas and added some of other names. -/
def Extends (lower : Text → Text) (base merged : LineageSchema) : Prop :=
  ∃ added, merged.keys = base.keys ++ added
    ∧ ∀ key ∈ added, ∀ known ∈ base.keys, lower key ≠ lower known

theorem caseKey_of_extends {merged : LineageSchema} {known name : Text}
    (h : Extends lower base merged) (hknown : known ∈ base.keys) (heq : lower known = lower name) :
  caseKey lower merged name = caseKey lower base name
  := by
  obtain ⟨added, hkeys, hadded⟩ := h
  have hcontains : merged.contains name = base.contains name := by
    rw [Bool.eq_iff_iff, Dict.contains_iff, Dict.contains_iff, hkeys]
    constructor
    · rintro ⟨key, hkey, hbeq⟩
      rcases List.mem_append.mp hkey with hkey | hkey
      · exact ⟨key, hkey, hbeq⟩
      · rw [eq_of_beq hbeq] at hkey
        exact absurd heq.symm (hadded name hkey known hknown)
    · rintro ⟨key, hkey, hbeq⟩
      exact ⟨key, List.mem_append_left added hkey, hbeq⟩
  obtain ⟨key, hkey⟩ := Option.isSome_iff_exists.mp
    (List.find?_isSome (p := fun key => lower key == lower name).mpr
      ⟨known, hknown, beq_iff_eq.mpr heq⟩)
  rw [caseKey, caseKey, hcontains, hkeys, List.find?_append, hkey, Option.some_or]

variable (lower) in
/-- A name is stored under a key that differs from it in case only. -/
theorem lower_caseKey (merged : LineageSchema) (name : Text) :
  lower (caseKey lower merged name) = lower name
  := by
  rw [caseKey]
  split
  · rfl
  · cases hfind : merged.keys.find? (fun key => lower key == lower name) with
    | none => rfl
    | some key => exact eq_of_beq (List.find?_some (p := fun key => lower key == lower name) hfind)

theorem Extends.setTable {merged : LineageSchema} {name : Text} (h : Extends lower base merged)
    (hname : name ∈ merged.keys ∨ ∀ known ∈ base.keys, lower name ≠ lower known) (t : Text)
    (columns : Columns) :
  Extends lower base (merged.setTable name t columns)
  := by
  obtain ⟨added, hkeys, hadded⟩ := h
  rw [LineageSchema.setTable]
  by_cases hcontains : merged.contains name = true
  · exact ⟨added, by rw [Dict.keys_set_of_contains _ hcontains, hkeys], hadded⟩
  · have hget : merged.get? name = none := by
      rw [Dict.contains, Bool.not_eq_true, Option.isSome_eq_false_iff, Option.isNone_iff_eq_none]
        at hcontains
      exact hcontains
    use added ++ [name]
    constructor
    · rw [Dict.keys, Dict.items_set_of_get?_none _ hget, List.map_append, ← List.append_assoc,
        ← hkeys]
      rfl
    · intro key hkey
      rcases List.mem_append.mp hkey with hkey | hkey
      · exact hadded key hkey
      · rw [List.mem_singleton.mp hkey]
        rcases hname with hmem | hother
        · obtain ⟨tables, htables⟩ := Dict.mem_keys_iff.mp hmem
          rw [hget] at htables
          cases htables
        · exact hother

variable (lower) in
/-- A key that a name is stored under is there, or no schema has its name. -/
theorem caseKey_known (merged : LineageSchema) (name : Text) :
  caseKey lower merged name ∈ merged.keys
    ∨ ∀ known ∈ merged.keys, lower (caseKey lower merged name) ≠ lower known
  := by
  rw [caseKey]
  split
  · rename_i hcontains
    left
    obtain ⟨key, hkey, hbeq⟩ := Dict.contains_iff.mp hcontains
    rw [← eq_of_beq hbeq]
    exact hkey
  · cases hfind : merged.keys.find? (fun key => lower key == lower name) with
    | none =>
        right
        intro known hknown heq
        apply List.find?_eq_none.mp hfind known hknown
        exact beq_iff_eq.mpr heq.symm
    | some key =>
        left
        exact List.mem_of_find?_eq_some hfind

theorem Extends.mergeTables {merged : LineageSchema} (h : Extends lower base merged)
    (item : Text × Tables) :
  Extends lower base (mergeTables lower base merged item)
  := by
  have hname : ∀ m : LineageSchema, Extends lower base m → (∀ key ∈ merged.keys, key ∈ m.keys) →
      caseKey lower merged item.1 ∈ m.keys
        ∨ ∀ known ∈ base.keys, lower (caseKey lower merged item.1) ≠ lower known := by
    intro m hm hkeys
    rcases caseKey_known lower merged item.1 with hmem | hother
    · exact .inl (hkeys _ hmem)
    · right
      intro known hknown
      obtain ⟨added, hadded, -⟩ := h
      apply hother known
      rw [hadded]
      exact List.mem_append_left added hknown
  have hitems : ∀ (items : List (Text × Columns)) (m : LineageSchema), Extends lower base m →
      (∀ key ∈ merged.keys, key ∈ m.keys) →
      Extends lower base
        (items.foldl (mergeTable lower base item.1 (caseKey lower merged item.1)) m) := by
    intro items
    induction items with
    | nil => exact fun m hm _ => hm
    | cons table items ih =>
        intro m hm hkeys
        rw [List.foldl_cons, mergeTable]
        split
        · exact ih m hm hkeys
        · apply ih _ (hm.setTable (hname m hm hkeys) table.1 table.2)
          intro key hkey
          obtain ⟨tables, htables⟩ := Dict.mem_keys_iff.mp (hkeys key hkey)
          rw [Dict.mem_keys_iff, LineageSchema.setTable, Dict.get?_set]
          split
          · exact ⟨_, rfl⟩
          · exact ⟨tables, htables⟩
  exact hitems _ merged h (fun _ hkey => hkey)

end Merged

/-! ### The tables of the base -/

section Base

variable (lower : Text → Text) (base ddl : LineageSchema)

/-- The base has a table, in whatever case the names are written. -/
def Known (schemaName tableName : Text) : Prop :=
  ∃ s t, (base.table? s t).isSome = true ∧ lower s = lower schemaName ∧ lower t = lower tableName

/-- A merge keeps the tables of the base, and adds none that the base has under names which differ
in case only. -/
structure KeepsBase (merged : LineageSchema) : Prop where
  kept : ∀ s t columns, base.table? s t = some columns → merged.table? s t = some columns
  none_added : ∀ s t columns, merged.table? s t = some columns → base.table? s t = none →
    ¬ Known lower base s t

/-- The columns that a data definition gives to a table of a schema of the base, when it is not
left out.  The last ones count. -/
def ddlColumns (schemaName tableName : Text) : Option Columns :=
  (ddl.items.filterMap (fun item =>
    if caseKey lower base item.1 = schemaName ∧ shadowed lower base item.1 tableName = false then
      item.2.get? tableName
    else none)).getLast?

variable {lower base ddl}

/-- What a merge makes of a table that the base has under some spelling. -/
theorem table?_mergeDdlSchema {s t : Text} (h : Known lower base s t) :
  (mergeDdlSchema lower base ddl).table? s t
    = (ddlColumns lower base ddl s t).or (base.table? s t)
  := by
  obtain ⟨known, _, hsome, heq, -⟩ := h
  obtain ⟨columns, htable⟩ := Option.isSome_iff_exists.mp hsome
  have hknown := LineageSchema.mem_keys_of_table? htable
  have hitems : ∀ (items : List (Text × Tables)) (merged : LineageSchema),
      Extends lower base merged →
      (items.foldl (mergeTables lower base) merged).table? s t
        = ((items.filterMap (fun item =>
            if caseKey lower base item.1 = s ∧ shadowed lower base item.1 t = false then
              item.2.get? t
            else none)).getLast?).or (merged.table? s t) := by
    intro items
    induction items with
    | nil => exact fun _ _ => rfl
    | cons item items ih =>
        intro merged hmerged
        have hkey : caseKey lower merged item.1 = s ↔ caseKey lower base item.1 = s := by
          by_cases hname : lower known = lower item.1
          · rw [caseKey_of_extends hmerged hknown hname]
          · constructor
            · rintro rfl
              exact absurd (heq.trans (lower_caseKey lower merged item.1)) hname
            · rintro rfl
              exact absurd (heq.trans (lower_caseKey lower base item.1)) hname
        rw [List.foldl_cons, ih _ (hmerged.mergeTables item), table?_mergeTables,
          List.filterMap_cons]
        simp only [hkey]
        split
        · cases hget : item.2.get? t with
          | none => simp
          | some columns =>
              simp only [List.getLast?_cons, Option.some_or]
              cases (List.filterMap _ items).getLast? with
              | none => rfl
              | some columns' => rfl
        · simp
  exact hitems ddl.items base ⟨[], by simp, by simp⟩

variable (lower base ddl)

/-- Every table of a data definition that the base has, in whatever case the names are written, is
left out, or is in the base as it is written there. -/
def LeavesBase : Prop :=
  ∀ s t, Known lower base s t → ∀ columns, ddlColumns lower base ddl s t = some columns →
    base.table? s t = some columns

/-- A merge keeps the tables of the base, and adds none of them in another case, exactly when every
table of the data definition that the base has is left out or repeats what the base has. -/
theorem keepsBase_mergeDdlSchema_iff :
  KeepsBase lower base (mergeDdlSchema lower base ddl) ↔ LeavesBase lower base ddl
  := by
  constructor
  · intro h s t hknown columns hddl
    have htable : (mergeDdlSchema lower base ddl).table? s t = some columns := by
      rw [table?_mergeDdlSchema hknown, hddl, Option.some_or]
    cases hbase : base.table? s t with
    | none => exact absurd hknown (h.none_added s t columns htable hbase)
    | some columns' => rw [← htable, h.kept s t columns' hbase]
  · intro h
    constructor
    · intro s t columns hbase
      have hknown : Known lower base s t := ⟨s, t, by rw [hbase, Option.isSome_some], rfl, rfl⟩
      rw [table?_mergeDdlSchema hknown]
      cases hddl : ddlColumns lower base ddl s t with
      | none => exact hbase
      | some columns' =>
          rw [Option.some_or, ← h s t hknown columns' hddl, hbase]
    · intro s t columns hmerged hbase hknown
      rw [table?_mergeDdlSchema hknown, hbase, Option.or_none] at hmerged
      rw [h s t hknown columns hmerged] at hbase
      cases hbase

end Base

/-- Two schemas whose names differ in case, each with a table of its own. -/
def twoSpellings : LineageSchema :=
  Dict.ofList
    [("ods".toList, Dict.ofList [("ORDERS".toList, Dict.ofList [("ID".toList, "INT".toList)])]),
      ("ODS".toList, Dict.ofList [("ITEMS".toList, Dict.ofList [("ID".toList, "INT".toList)])])]

/-- A data definition of a table that the first of them has. -/
def ordersAgain : LineageSchema :=
  Dict.ofList
    [("ods".toList, Dict.ofList [("ORDERS".toList, Dict.ofList [("NOTE".toList, "TEXT".toList)])])]

/-- The table of the first schema is replaced. -/
theorem not_keepsBase_twoSpellings :
  ¬ KeepsBase (List.map Char.toLower) twoSpellings
    (mergeDdlSchema (List.map Char.toLower) twoSpellings ordersAgain)
  := by
  intro h
  have hkept := h.kept "ods".toList "ORDERS".toList (Dict.ofList [("ID".toList, "INT".toList)])
    (by decide)
  revert hkept
  decide

end Lineage
