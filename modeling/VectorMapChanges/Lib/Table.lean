import Mathlib.Data.List.Nodup

/-!
# Tables

A table is a list of rows with serial ids; the sequence that hands out the ids
never hands one out twice.  A keyed table has a unique natural key besides.
Both facts are fields, so that no later proof has to carry them along.

Main facts:
* `KeyedTable.get?_eq_some_iff`: a natural key finds exactly the row that has it;
* `KeyedTable.mem_insertOrIgnore`: insert-if-absent keeps every row, and adds one
  exactly when its key is new;
* `KeyedTable.values_insertAll`: inserting appends the rows;
* `KeyedTable.exists_insertAll_iff`: it succeeds when the keys are new and differ;
* `filter_replace`: replacing the rows in a scope;
* `SerialTable.filter_id`: an id finds exactly the row that has it;
* `SerialTable.Later.eq_of_id_eq`: over any series of changes an id stands for one
  row.
-/

namespace Lib

universe u v

section Replace

variable {α : Type u} {p q : α → Bool} {old new : List α}

/-- What is in scope after a replacement is what replaced it. -/
theorem filter_replace (hnew : ∀ x ∈ new, p x = true) :
    (old.filter (fun x => !p x) ++ new).filter p = new := by
  have hold : (old.filter (fun x => !p x)).filter p = [] := by
    rw [List.filter_filter]
    simp
  rw [List.filter_append, hold, List.nil_append]
  exact List.filter_eq_self.mpr hnew

/-- What is out of scope is as before. -/
theorem filter_replace_of_disjoint (hnew : ∀ x ∈ new, q x = false)
    (hdisj : ∀ x, q x = true → p x = false) :
    (old.filter (fun x => !p x) ++ new).filter q = old.filter q := by
  have hnone : new.filter q = [] :=
    List.filter_eq_nil_iff.mpr (fun x hx => by simp [hnew x hx])
  rw [List.filter_append, hnone, List.append_nil, List.filter_filter]
  apply List.filter_congr
  intro x _
  cases hq : q x with
  | false => rfl
  | true => rw [hdisj x hq, Bool.true_and, Bool.not_false]

end Replace

/-- Where exactly one element is kept, the others are gone. -/
theorem filter_eq_singleton {α : Type u} {p : α → Bool} {l : List α} {a : α}
    (hnodup : l.Nodup) (ha : a ∈ l) (hp : p a = true)
    (hunique : ∀ b ∈ l, p b = true → b = a) :
    l.filter p = [a] := by
  have hperm : (l.filter p).Perm [a] := by
    rw [List.perm_ext_iff_of_nodup (hnodup.filter p) (List.nodup_singleton a)]
    intro b
    rw [List.mem_filter, List.mem_singleton]
    constructor
    · rintro ⟨hb, hpb⟩
      exact hunique b hb hpb
    · rintro rfl
      exact ⟨ha, hp⟩
  exact List.perm_singleton.mp hperm

/-- Where the rows joined to an element are kept or dropped together. -/
theorem filter_flatMap_of_forall {α : Type u} {β : Type v} {p : β → Bool}
    {q : α → Bool} {f : α → List β} {l : List α}
    (h : ∀ a ∈ l, ∀ b ∈ f a, p b = q a) :
    (l.flatMap f).filter p = (l.filter q).flatMap f := by
  induction l with
  | nil => rfl
  | cons a rest ih =>
      have hrest := ih (fun x hx => h x (List.mem_cons_of_mem a hx))
      have hhead : ∀ b ∈ f a, p b = q a := h a List.mem_cons_self
      rw [List.flatMap_cons, List.filter_append, hrest]
      cases hq : q a with
      | false =>
          rw [List.filter_cons_of_neg (by simp [hq]),
            List.filter_eq_nil_iff.mpr (fun b hb => by simp [hhead b hb, hq]),
            List.nil_append]
      | true =>
          rw [List.filter_cons_of_pos hq, List.flatMap_cons,
            List.filter_eq_self.mpr (fun b hb => by rw [hhead b hb, hq])]

/-- A table with serial ids. -/
structure SerialTable (ρ : Type u) where
  rows : List (Nat × ρ)
  nextId : Nat
  nodupIds : (rows.map Prod.fst).Nodup
  ids_lt : ∀ row ∈ rows, row.1 < nextId

namespace SerialTable

variable {ρ : Type u}

/-- The rows without their ids. -/
def values (t : SerialTable ρ) : List ρ :=
  t.rows.map Prod.snd

/-- A row under this id is stored. -/
def HasId (t : SerialTable ρ) (id : Nat) : Prop :=
  id ∈ t.rows.map Prod.fst

instance (t : SerialTable ρ) (id : Nat) : Decidable (t.HasId id) :=
  inferInstanceAs (Decidable (id ∈ t.rows.map Prod.fst))

theorem eq_of_id_eq {t : SerialTable ρ} {row row' : Nat × ρ}
    (h : row ∈ t.rows) (h' : row' ∈ t.rows) (hid : row.1 = row'.1) :
    row = row' :=
  List.inj_on_of_nodup_map t.nodupIds h h' hid

/-- An id finds exactly the row that has it. -/
theorem filter_id {t : SerialTable ρ} {row : Nat × ρ} (h : row ∈ t.rows) :
    t.rows.filter (fun r => r.1 = row.1) = [row] := by
  have hnodup : t.rows.Nodup := List.Nodup.of_map Prod.fst t.nodupIds
  refine filter_eq_singleton hnodup h (by simp) ?_
  intro r hr hid
  exact t.eq_of_id_eq hr h (of_decide_eq_true hid)

def empty : SerialTable ρ where
  rows := []
  nextId := 1
  nodupIds := by simp
  ids_lt := by simp

/-- Take an id from the sequence without storing a row. -/
def skipId (t : SerialTable ρ) : SerialTable ρ where
  rows := t.rows
  nextId := t.nextId + 1
  nodupIds := t.nodupIds
  ids_lt := fun row hrow => Nat.lt_succ_of_lt (t.ids_lt row hrow)

/-- Store a row under the next id. -/
def insert (t : SerialTable ρ) (value : ρ) : SerialTable ρ where
  rows := t.rows ++ [(t.nextId, value)]
  nextId := t.nextId + 1
  nodupIds := by
    rw [List.map_append, List.nodup_append]
    refine ⟨t.nodupIds, by simp, ?_⟩
    intro id hid id' hid'
    obtain ⟨row, hrow, rfl⟩ := List.mem_map.mp hid
    have hlt := t.ids_lt row hrow
    rw [List.map_singleton, List.mem_singleton] at hid'
    omega
  ids_lt := by
    intro row hrow
    rcases List.mem_append.mp hrow with h | h
    · exact Nat.lt_succ_of_lt (t.ids_lt row h)
    · rw [List.mem_singleton] at h
      rw [h]
      exact Nat.lt_succ_self _

/-- Rows under consecutive ids. -/
def numbered (firstId : Nat) : List ρ → List (Nat × ρ)
  | [] => []
  | value :: rest => (firstId, value) :: numbered (firstId + 1) rest

/-- Store the rows one after the other. -/
def insertAll (t : SerialTable ρ) (values : List ρ) : SerialTable ρ :=
  values.foldl insert t

/-- `DELETE FROM t WHERE p` -/
def deleteWhere (t : SerialTable ρ) (p : ρ → Bool) : SerialTable ρ where
  rows := t.rows.filter (fun row => !p row.2)
  nextId := t.nextId
  nodupIds := t.nodupIds.sublist (List.filter_sublist.map Prod.fst)
  ids_lt := fun row hrow => t.ids_lt row (List.mem_of_mem_filter hrow)

@[simp] theorem map_snd_numbered (firstId : Nat) (values : List ρ) :
    (numbered firstId values).map Prod.snd = values := by
  induction values generalizing firstId with
  | nil => rfl
  | cons value rest ih => rw [numbered, List.map_cons, ih]

/-- Inserting appends the rows under the next ids. -/
theorem rows_insertAll (t : SerialTable ρ) (values : List ρ) :
    (t.insertAll values).rows = t.rows ++ numbered t.nextId values ∧
      (t.insertAll values).nextId = t.nextId + values.length := by
  induction values generalizing t with
  | nil => simp [insertAll, numbered]
  | cons value rest ih =>
      obtain ⟨hrows, hnext⟩ := ih (t.insert value)
      rw [insertAll] at hrows hnext
      rw [insertAll, List.foldl_cons, hrows, hnext]
      constructor
      · simp [insert, numbered]
      · simp [insert]
        omega

/-- Replacing rows in a scope leaves the others as they are, ids included. -/
theorem filter_rows_replace (t : SerialTable ρ) {p : ρ → Bool} {values : List ρ}
    (h : ∀ value ∈ values, p value = true) :
    ((t.deleteWhere p).insertAll values).rows.filter (fun row => !p row.2) =
      t.rows.filter (fun row => !p row.2) := by
  have hnew : ∀ row ∈ numbered (t.deleteWhere p).nextId values, p row.2 = true := by
    intro row hrow
    apply h
    rw [← map_snd_numbered (t.deleteWhere p).nextId values]
    exact List.mem_map_of_mem hrow
  rw [((t.deleteWhere p).rows_insertAll values).1]
  refine filter_replace_of_disjoint (fun row hrow => ?_) (fun row hrow => ?_)
  · rw [hnew row hrow, Bool.not_true]
  · rwa [Bool.not_eq_true'] at hrow

@[simp] theorem values_insertAll (t : SerialTable ρ) (values : List ρ) :
    (t.insertAll values).values = t.values ++ values := by
  rw [SerialTable.values, (t.rows_insertAll values).1, List.map_append,
    map_snd_numbered]
  rfl

@[simp] theorem values_deleteWhere (t : SerialTable ρ) (p : ρ → Bool) :
    (t.deleteWhere p).values = t.values.filter (fun value => !p value) := by
  simp only [values, deleteWhere]
  rw [List.filter_map]
  rfl

/-- The table may have gained and lost rows since, but no id was handed out
twice. -/
structure Later (t t' : SerialTable ρ) : Prop where
  nextId_le : t.nextId ≤ t'.nextId
  fresh : ∀ row ∈ t'.rows, row ∈ t.rows ∨ t.nextId ≤ row.1

theorem Later.refl (t : SerialTable ρ) : t.Later t :=
  ⟨Nat.le_refl _, fun _ hrow => Or.inl hrow⟩

theorem Later.trans {t t' t'' : SerialTable ρ} (h : t.Later t')
    (h' : t'.Later t'') : t.Later t'' := by
  refine ⟨Nat.le_trans h.nextId_le h'.nextId_le, ?_⟩
  intro row hrow
  rcases h'.fresh row hrow with hrow | hid
  · exact h.fresh row hrow
  · exact Or.inr (Nat.le_trans h.nextId_le hid)

/-- An id that stands for a row stands for no other one later. -/
theorem Later.eq_of_id_eq {t t' : SerialTable ρ} (h : t.Later t')
    {row row' : Nat × ρ} (hrow : row ∈ t.rows) (hrow' : row' ∈ t'.rows)
    (hid : row.1 = row'.1) :
    row = row' := by
  rcases h.fresh row' hrow' with hmem | hnext
  · exact t.eq_of_id_eq hrow hmem hid
  · have hlt := t.ids_lt row hrow
    omega

theorem later_skipId (t : SerialTable ρ) : t.Later t.skipId :=
  ⟨Nat.le_succ _, fun _ hrow => Or.inl hrow⟩

theorem later_insert (t : SerialTable ρ) (value : ρ) : t.Later (t.insert value) := by
  refine ⟨Nat.le_succ _, ?_⟩
  intro row hrow
  rcases List.mem_append.mp hrow with hrow | hrow
  · exact Or.inl hrow
  · rw [List.mem_singleton] at hrow
    rw [hrow]
    exact Or.inr (Nat.le_refl _)

theorem later_insertAll (t : SerialTable ρ) (values : List ρ) :
    t.Later (t.insertAll values) := by
  induction values generalizing t with
  | nil => exact Later.refl t
  | cons value rest ih =>
      rw [insertAll, List.foldl_cons]
      exact (t.later_insert value).trans (ih (t.insert value))

theorem later_deleteWhere (t : SerialTable ρ) (p : ρ → Bool) :
    t.Later (t.deleteWhere p) :=
  ⟨Nat.le_refl _, fun _ hrow => Or.inl (List.mem_of_mem_filter hrow)⟩

end SerialTable

/-- A table with serial ids and a unique natural key. -/
structure KeyedTable {ρ : Type u} {κ : Type v} (key : ρ → κ) extends
    SerialTable ρ where
  nodupKeys : (rows.map (fun row => key row.2)).Nodup

namespace KeyedTable

variable {ρ : Type u} {κ : Type v} {key : ρ → κ}

theorem eq_of_key_eq {t : KeyedTable key} {row row' : Nat × ρ}
    (h : row ∈ t.rows) (h' : row' ∈ t.rows) (hkey : key row.2 = key row'.2) :
    row = row' :=
  List.inj_on_of_nodup_map t.nodupKeys h h' hkey

def empty : KeyedTable key where
  toSerialTable := SerialTable.empty
  nodupKeys := by simp [SerialTable.empty]

/-- `DELETE FROM t WHERE p` -/
def deleteWhere (t : KeyedTable key) (p : ρ → Bool) : KeyedTable key where
  toSerialTable := t.toSerialTable.deleteWhere p
  nodupKeys := t.nodupKeys.sublist (List.filter_sublist.map _)

section Lookup

variable [DecidableEq κ]

/-- The row with the given natural key. -/
def get? (t : KeyedTable key) (k : κ) : Option (Nat × ρ) :=
  t.rows.find? (fun row => key row.2 = k)

/-- A natural key finds exactly the row that has it. -/
theorem get?_eq_some_iff {t : KeyedTable key} {k : κ} {row : Nat × ρ} :
    t.get? k = some row ↔ row ∈ t.rows ∧ key row.2 = k := by
  constructor
  · intro h
    exact ⟨List.mem_of_find?_eq_some h, by simpa using List.find?_some h⟩
  · rintro ⟨hrow, hkey⟩
    cases hfound : t.get? k with
    | none =>
        have hno := List.find?_eq_none.mp hfound row hrow
        simp [hkey] at hno
    | some row' =>
        have hrow' := List.mem_of_find?_eq_some hfound
        have hkey' : key row'.2 = k := by simpa using List.find?_some hfound
        rw [t.eq_of_key_eq hrow' hrow (hkey'.trans hkey.symm)]

theorem get?_eq_none_iff {t : KeyedTable key} {k : κ} :
    t.get? k = none ↔ ∀ row ∈ t.rows, key row.2 ≠ k := by
  simp [get?, List.find?_eq_none]

/-- Store a row whose natural key is new. -/
def insertNew (t : KeyedTable key) (value : ρ)
    (h : t.get? (key value) = none) : KeyedTable key where
  toSerialTable := t.toSerialTable.insert value
  nodupKeys := by
    have hnew := get?_eq_none_iff.mp h
    simp only [SerialTable.insert, List.map_append, List.nodup_append]
    refine ⟨t.nodupKeys, by simp, ?_⟩
    intro k hk k' hk'
    obtain ⟨row, hrow, rfl⟩ := List.mem_map.mp hk
    rw [List.map_singleton, List.mem_singleton] at hk'
    rw [hk']
    exact hnew row hrow

/-- `INSERT INTO t`; a taken natural key is a violation. -/
def insert (t : KeyedTable key) (value : ρ) : Option (KeyedTable key) :=
  if h : t.get? (key value) = none then some (t.insertNew value h) else none

/-- Store the rows one after the other, or none of them. -/
def insertAll (t : KeyedTable key) (values : List ρ) :
    Option (KeyedTable key) :=
  values.foldlM insert t

theorem toSerialTable_insert {t t' : KeyedTable key} {value : ρ}
    (h : t.insert value = some t') :
    t'.toSerialTable = t.toSerialTable.insert value := by
  unfold insert at h
  split at h
  · rw [← Option.some.inj h]
    rfl
  · cases h

/-- Inserting checks the keys, and else stores the rows as any table does. -/
theorem toSerialTable_insertAll {t t' : KeyedTable key} {values : List ρ}
    (h : t.insertAll values = some t') :
    t'.toSerialTable = t.toSerialTable.insertAll values := by
  induction values generalizing t with
  | nil =>
      rw [insertAll, List.foldlM_nil] at h
      rw [Option.some.inj h]
      rfl
  | cons value rest ih =>
      rw [insertAll, List.foldlM_cons] at h
      obtain ⟨t₁, hhead, hrest⟩ := Option.bind_eq_some_iff.mp h
      rw [ih hrest, toSerialTable_insert hhead]
      rfl

/-- Inserting appends the rows. -/
theorem values_insertAll {t t' : KeyedTable key} {values : List ρ}
    (h : t.insertAll values = some t') :
    t'.values = t.values ++ values := by
  rw [toSerialTable_insertAll h, SerialTable.values_insertAll]

/-- A key is stored exactly if some value has it. -/
theorem get?_eq_none_iff_values {t : KeyedTable key} {k : κ} :
    t.get? k = none ↔ ∀ value ∈ t.values, key value ≠ k := by
  rw [get?_eq_none_iff, SerialTable.values, List.forall_mem_map]

/-- Rows can be inserted exactly if their keys are new and differ. -/
theorem exists_insertAll_iff {t : KeyedTable key} {values : List ρ} :
    (∃ t', t.insertAll values = some t') ↔
      (values.map key).Nodup ∧ ∀ value ∈ values, t.get? (key value) = none := by
  induction values generalizing t with
  | nil =>
      simp [insertAll]
  | cons value rest ih =>
      have hsplit : (∃ t', t.insertAll (value :: rest) = some t') ↔
          ∃ t₁, t.insert value = some t₁ ∧ ∃ t', t₁.insertAll rest = some t' := by
        simp only [insertAll, List.foldlM_cons, Option.bind_eq_bind,
          Option.bind_eq_some_iff]
        constructor
        · rintro ⟨t', t₁, hhead, hrest⟩
          exact ⟨t₁, hhead, t', hrest⟩
        · rintro ⟨t₁, hhead, t', hrest⟩
          exact ⟨t', t₁, hhead, hrest⟩
      rw [hsplit]
      by_cases hnew : t.get? (key value) = none
      · have hinsert : t.insert value = some (t.insertNew value hnew) := by
          rw [insert, dif_pos hnew]
        have hnext : ∀ k, (t.insertNew value hnew).get? k = none ↔
            t.get? k = none ∧ key value ≠ k := by
          intro k
          simp only [get?_eq_none_iff_values]
          simp [insertNew, SerialTable.values, SerialTable.insert, or_imp,
            forall_and]
        rw [hinsert]
        simp only [Option.some.injEq, exists_eq_left', ih, hnext]
        rw [List.map_cons, List.nodup_cons]
        constructor
        · rintro ⟨hnodup, hall⟩
          refine ⟨⟨?_, hnodup⟩, ?_⟩
          · intro hmem
            obtain ⟨v, hv, heq⟩ := List.mem_map.mp hmem
            exact (hall v hv).2 heq.symm
          · intro v hv
            rcases List.mem_cons.mp hv with rfl | hv
            · exact hnew
            · exact (hall v hv).1
        · rintro ⟨⟨hdiff, hnodup⟩, hall⟩
          refine ⟨hnodup, ?_⟩
          intro v hv
          refine ⟨hall v (List.mem_cons_of_mem _ hv), ?_⟩
          intro heq
          exact hdiff (List.mem_map.mpr ⟨v, hv, heq.symm⟩)
      · have hinsert : t.insert value = none := by
          rw [insert, dif_neg hnew]
        rw [hinsert]
        constructor
        · rintro ⟨t₁, h, -⟩
          cases h
        · rintro ⟨-, hall⟩
          exact absurd (hall value (by simp)) hnew

/-- `INSERT INTO t … ON CONFLICT DO NOTHING RETURNING id`; a conflict uses up an
id all the same. -/
def insertOrIgnore (t : KeyedTable key) (value : ρ) :
    Option Nat × KeyedTable key :=
  if h : t.get? (key value) = none then (some t.nextId, t.insertNew value h)
  else (none, { t with toSerialTable := t.toSerialTable.skipId })

/-- An insertion that ignores conflicts keeps every row, and adds one exactly
when its natural key is new. -/
theorem mem_insertOrIgnore {t : KeyedTable key} {value : ρ} {row : Nat × ρ} :
    row ∈ (t.insertOrIgnore value).2.rows ↔
      row ∈ t.rows ∨ t.get? (key value) = none ∧ row = (t.nextId, value) := by
  unfold insertOrIgnore
  split
  · rename_i hnone
    simp [insertNew, SerialTable.insert, hnone]
  · rename_i hsome
    simp [SerialTable.skipId, hsome]

/-- It never hands out an id twice. -/
theorem later_insertOrIgnore (t : KeyedTable key) (value : ρ) :
    t.Later (t.insertOrIgnore value).2.toSerialTable := by
  unfold insertOrIgnore
  split
  · exact t.later_insert value
  · exact t.later_skipId

end Lookup

end KeyedTable
end Lib
