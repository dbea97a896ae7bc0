import VectorMapChanges.Lib.Fallible

/-!
# Transactions

A connection sees a database in which its own statements have taken effect, and
commits them all at once.  It has at most one temporary table, which a commit
drops.  A program is a function of the connection; when a statement raises, the
program ends there, and what the statements before it did stays on the
connection, uncommitted.

Main facts:
* `bind_eq_ok_iff`: a sequence returns when its parts do;
* `copyRows_spec`: a COPY that is fed lazily stages all rows or raises;
* `commitAfter_cases`: a program that ends with its only commit either raises and
  leaves the committed database alone, or commits what it has done.
-/

namespace Lib
namespace Transaction

/-- The committed database, what the connection sees, and its temporary table. -/
structure Connection (δ σ : Type) where
  committed : δ
  working : δ
  staging : Option (List σ)

/-- A connection without an open transaction. -/
def Connection.open {δ σ : Type} (db : δ) : Connection δ σ where
  committed := db
  working := db
  staging := none

/-- A program on a connection. -/
def Session (δ σ ε α : Type) : Type :=
  Connection δ σ → Except ε α × Connection δ σ

namespace Session

variable {δ σ ε α β φ : Type}

section Statements

/-- Return a value. -/
def done (a : α) : Session δ σ ε α :=
  fun c => (.ok a, c)

/-- Go on with what the first program returns. -/
def andThen (p : Session δ σ ε α) (f : α → Session δ σ ε β) : Session δ σ ε β :=
  fun c =>
    match p c with
    | (.ok a, c) => f a c
    | (.error e, c) => (.error e, c)

instance : Monad (Session δ σ ε) where
  pure := done
  bind := andThen

/-- A computation that does not involve the connection. -/
def ofExcept (x : Except ε α) : Session δ σ ε α :=
  fun c => (x, c)

/-- Raise if there is something to raise. -/
def check : Option ε → Session δ σ ε Unit
  | some e => ofExcept (.error e)
  | none => done ()

/-- A statement on what the connection sees. -/
def execute (f : δ → Except ε (α × δ)) : Session δ σ ε α :=
  fun c =>
    match f c.working with
    | .ok (a, db) => (.ok a, { c with working := db })
    | .error e => (.error e, c)

/-- `CREATE TEMP TABLE … ON COMMIT DROP` -/
def createTemp (duplicate : ε) : Session δ σ ε Unit :=
  fun c =>
    match c.staging with
    | none => (.ok (), { c with staging := some [] })
    | some _ => (.error duplicate, c)

/-- Write one row of a COPY. -/
def writeRow (row : σ) : Session δ σ ε Unit :=
  fun c => (.ok (), { c with staging := c.staging.map (· ++ [row]) })

/-- Write the rows of a generator, each as it is made. -/
def copyRows (fault : Nat → Option ε) (makeRow : φ → Except ε σ) :
    Nat → List φ → Session δ σ ε Unit
  | _, [] => pure ()
  | n, item :: rest => do
      let row ← ofExcept (makeRow item)
      check (fault n)
      writeRow row
      copyRows fault makeRow (n + 1) rest

/-- A statement that reads the temporary table. -/
def executeStaged (f : δ → List σ → Except ε (α × δ)) : Session δ σ ε α :=
  fun c => execute (fun db => f db (c.staging.getD [])) c

/-- `connection.commit()` -/
def commit : Session δ σ ε Unit :=
  fun c => (.ok (), { c with committed := c.working, staging := none })

/-- A program that commits at its end. -/
def commitAfter (body : Session δ σ ε α) (fault : Option ε) : Session δ σ ε α := do
  let a ← body
  check fault
  commit
  pure a

end Statements

/-- A sequence returns when its parts do. -/
theorem bind_eq_ok_iff {p : Session δ σ ε α} {f : α → Session δ σ ε β}
    {c c' : Connection δ σ} {b : β} :
    (p >>= f) c = (.ok b, c') ↔
      ∃ a c₁, p c = (.ok a, c₁) ∧ f a c₁ = (.ok b, c') := by
  show andThen p f c = _ ↔ _
  unfold andThen
  rcases p c with ⟨a | a, c₁⟩
  · constructor
    · intro h
      cases h
    · rintro ⟨a', c₂, h, -⟩
      cases h
  · constructor
    · intro h
      exact ⟨a, c₁, rfl, h⟩
    · rintro ⟨a', c₂, h, hf⟩
      cases h
      exact hf

theorem ofExcept_eq_ok_iff {x : Except ε α} {c c' : Connection δ σ} {a : α} :
    ofExcept x c = (.ok a, c') ↔ x = .ok a ∧ c' = c := by
  rw [ofExcept, Prod.mk.injEq]
  exact and_congr_right fun _ => eq_comm

theorem writeRow_eq_ok_iff {row : σ} {c c' : Connection δ σ} {u : Unit} :
    (writeRow row c : Except ε Unit × Connection δ σ) = (.ok u, c') ↔
      c' = { c with staging := c.staging.map (· ++ [row]) } := by
  rw [writeRow, Prod.mk.injEq]
  exact ⟨fun h => h.2.symm, fun h => ⟨rfl, h.symm⟩⟩

theorem check_eq_ok_iff {fault : Option ε} {c c' : Connection δ σ} {u : Unit} :
    check fault c = (.ok u, c') ↔ fault = none ∧ c' = c := by
  cases fault with
  | none =>
      constructor
      · intro h
        cases h
        exact ⟨rfl, rfl⟩
      · rintro ⟨-, rfl⟩
        rfl
  | some e =>
      constructor
      · intro h
        cases h
      · rintro ⟨h, -⟩
        cases h

theorem execute_eq_ok_iff {f : δ → Except ε (α × δ)} {c c' : Connection δ σ} {a : α} :
    execute f c = (.ok a, c') ↔
      ∃ db, f c.working = .ok (a, db) ∧ c' = { c with working := db } := by
  unfold execute
  rcases f c.working with e | ⟨a', db⟩
  · constructor
    · intro h
      cases h
    · rintro ⟨db, h, -⟩
      cases h
  · constructor
    · intro h
      cases h
      exact ⟨db, rfl, rfl⟩
    · rintro ⟨db', h, rfl⟩
      cases h
      rfl

theorem createTemp_eq_ok_iff {duplicate : ε} {c c' : Connection δ σ} {u : Unit} :
    createTemp duplicate c = (.ok u, c') ↔
      c.staging = none ∧ c' = { c with staging := some [] } := by
  unfold createTemp
  cases c.staging with
  | none => exact ⟨fun h => ⟨rfl, (Prod.mk.inj h).2.symm⟩, fun h => by rw [h.2]⟩
  | some rows =>
      constructor
      · intro h
        cases h
      · rintro ⟨h, -⟩
        cases h

theorem executeStaged_eq_ok_iff {f : δ → List σ → Except ε (α × δ)}
    {c c' : Connection δ σ} {a : α} :
    executeStaged f c = (.ok a, c') ↔
      ∃ db, f c.working (c.staging.getD []) = .ok (a, db) ∧
        c' = { c with working := db } :=
  execute_eq_ok_iff

/-- A COPY returns when every row can be made and written, and it has staged them
all. -/
theorem copyRows_eq_ok_iff {fault : Nat → Option ε} {makeRow : φ → Except ε σ}
    {n : Nat} {items : List φ} {c c' : Connection δ σ} {staged : List σ} {u : Unit}
    (hstaging : c.staging = some staged) :
    copyRows fault makeRow n items c = (.ok u, c') ↔
      ∃ rows, items.mapM makeRow = .ok rows ∧
        (∀ i < items.length, fault (n + i) = none) ∧
        c' = { c with staging := some (staged ++ rows) } := by
  induction items generalizing n c staged with
  | nil =>
      constructor
      · intro h
        cases h
        refine ⟨[], rfl, fun i hi => absurd hi (Nat.not_lt_zero _), ?_⟩
        rw [List.append_nil, ← hstaging]
      · rintro ⟨rows, hrows, -, hc⟩
        rw [List.mapM_nil, pure_eq_ok] at hrows
        rw [hc, ← hrows, List.append_nil, ← hstaging]
        rfl
  | cons item rest ih =>
      simp only [copyRows, bind_eq_ok_iff, ofExcept_eq_ok_iff, check_eq_ok_iff,
        writeRow_eq_ok_iff]
      constructor
      · rintro ⟨row, c₁, ⟨hrow, rfl⟩, _, c₂, ⟨hfault, rfl⟩, _, c₃, rfl, h⟩
        obtain ⟨rows, hrows, hfaults, rfl⟩ :=
          (ih (congrArg (Option.map (· ++ [row])) hstaging)).mp h
        refine ⟨row :: rows, ?_, ?_, ?_⟩
        · rw [mapM_eq_ok_iff] at hrows ⊢
          exact List.Forall₂.cons hrow hrows
        · intro i hi
          cases i with
          | zero => exact hfault
          | succ i =>
              have hlt : i < rest.length := Nat.lt_of_succ_lt_succ hi
              rw [← hfaults i hlt, Nat.add_right_comm]
              rfl
        · rw [List.append_assoc, List.singleton_append]
      · rintro ⟨rows, hrows, hfaults, rfl⟩
        rw [mapM_eq_ok_iff] at hrows
        cases hrows with
        | @cons _ row _ rows hrow hrows =>
            have hfault : fault n = none := hfaults 0 (Nat.succ_pos _)
            have hrest : ∀ i < rest.length, fault (n + 1 + i) = none := by
              intro i hi
              rw [Nat.add_right_comm]
              exact hfaults (i + 1) (Nat.succ_lt_succ hi)
            refine ⟨row, c, ⟨hrow, rfl⟩, (), c, ⟨hfault, rfl⟩, (), _, rfl, ?_⟩
            refine (ih (congrArg (Option.map (· ++ [row])) hstaging)).mpr
              ⟨rows, mapM_eq_ok_iff.mpr hrows, hrest, ?_⟩
            rw [List.append_assoc, List.singleton_append]

section Committed

/-- A program that commits nothing, whether it returns or raises. -/
def KeepsCommitted (p : Session δ σ ε α) : Prop :=
  ∀ c, (p c).2.committed = c.committed

theorem keepsCommitted_bind {p : Session δ σ ε α} {f : α → Session δ σ ε β}
    (hp : KeepsCommitted p) (hf : ∀ a, KeepsCommitted (f a)) :
    KeepsCommitted (p >>= f) := by
  intro c
  have hc := hp c
  show (andThen p f c).2.committed = c.committed
  unfold andThen
  generalize p c = r at hc ⊢
  rcases r with ⟨e | a, c₁⟩
  · exact hc
  · exact (hf a c₁).trans hc

theorem keepsCommitted_ofExcept (x : Except ε α) :
    KeepsCommitted (ofExcept x : Session δ σ ε α) :=
  fun _ => rfl

theorem keepsCommitted_check (fault : Option ε) :
    KeepsCommitted (check fault : Session δ σ ε Unit) := by
  intro c
  cases fault with
  | none => rfl
  | some e => rfl

theorem keepsCommitted_execute (f : δ → Except ε (α × δ)) :
    KeepsCommitted (execute f : Session δ σ ε α) := by
  intro c
  unfold execute
  rcases f c.working with e | ⟨a, db⟩
  · rfl
  · rfl

theorem keepsCommitted_executeStaged (f : δ → List σ → Except ε (α × δ)) :
    KeepsCommitted (executeStaged f) :=
  fun c => keepsCommitted_execute _ c

theorem keepsCommitted_createTemp (duplicate : ε) :
    KeepsCommitted (createTemp duplicate : Session δ σ ε Unit) := by
  intro c
  unfold createTemp
  cases c.staging with
  | none => rfl
  | some rows => rfl

theorem keepsCommitted_copyRows (fault : Nat → Option ε) (makeRow : φ → Except ε σ)
    (n : Nat) (items : List φ) :
    KeepsCommitted (copyRows fault makeRow n items : Session δ σ ε Unit) := by
  induction items generalizing n with
  | nil => exact fun _ => rfl
  | cons item rest ih =>
      exact keepsCommitted_bind (keepsCommitted_ofExcept _) fun row =>
        keepsCommitted_bind (keepsCommitted_check _) fun _ =>
          keepsCommitted_bind (fun _ => rfl) fun _ => ih (n + 1)

/-- A program that ends with its only commit raises and leaves the committed
database alone, or returns and commits what it has done. -/
theorem commitAfter_cases {body : Session δ σ ε α} (hbody : KeepsCommitted body)
    (fault : Option ε) (c : Connection δ σ) :
    (∃ e, (commitAfter body fault c).1 = .error e ∧
      (commitAfter body fault c).2.committed = c.committed) ∨
    ∃ a c₁, body c = (.ok a, c₁) ∧ fault = none ∧
      commitAfter body fault c =
        (.ok a, { c₁ with committed := c₁.working, staging := none }) := by
  have hc := hbody c
  cases hbodyc : body c with
  | mk r c₁ =>
      rw [hbodyc] at hc
      cases r with
      | error e =>
          have hraise : commitAfter body fault c = (.error e, c₁) := by
            show andThen body _ c = _
            rw [andThen, hbodyc]
          exact Or.inl ⟨e, by rw [hraise], by rw [hraise]; exact hc⟩
      | ok a =>
          have hnext : commitAfter body fault c =
              (do check fault; commit; pure a : Session δ σ ε α) c₁ := by
            show andThen body _ c = _
            rw [andThen, hbodyc]
          cases fault with
          | some e => exact Or.inl ⟨e, by rw [hnext]; rfl, by rw [hnext]; exact hc⟩
          | none => exact Or.inr ⟨a, c₁, rfl, rfl, by rw [hnext]; rfl⟩

end Committed

end Session
end Transaction
end Lib
