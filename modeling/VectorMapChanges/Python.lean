import VectorMapChanges.Lib.Dict
import VectorMapChanges.Lib.Fallible
import Mathlib.Data.List.Dedup
import Mathlib.Data.List.TakeWhile

/-!
# The Python runtime underneath the pipeline

Exceptions, dictionary subscripts, and sets.  Strings are Python strings,
ordered by code point, and floats are exact rationals.

A set is represented by the list of the values added to it, in the order of the
additions.  Membership does not see that order; iteration does, and Python
randomizes string hashing per process, so the order in which a set is walked is
a parameter: any function of the additions that lists each value once.  The
sites at which the code walks a set are told apart, since sets built in
different ways have unrelated orders.
-/

namespace VectorMapChanges

open Lib

/-- The exceptions that the modelled code raises or lets through. -/
inductive PyError where
  | keyError (key : String)
  | valueError (message : String)
  | overflowError (message : String)
  | databaseError (constraint : String)
  | clientError (code : String)
deriving DecidableEq, Repr

/-- Two lower-case hexadecimal digits. -/
def hexByte (n : Nat) : String :=
  let digits := "0123456789abcdef".toList
  String.ofList [digits.getD (n / 16) '0', digits.getD (n % 16) '0']

/-- `repr` of one character inside quotes of the code `quote`. -/
def reprChar (quote : Nat) (c : Char) : String :=
  if c.toNat = quote ∨ c.toNat = 92 then "\\" ++ String.singleton c
  else if c.toNat = 10 then "\\n"
  else if c.toNat = 13 then "\\r"
  else if c.toNat = 9 then "\\t"
  else if c.toNat < 32 ∨ c.toNat = 127 then "\\x" ++ hexByte c.toNat
  else String.singleton c

/-- `repr` of a string of printable or ASCII characters: single quotes, unless
the text has a single quote and no double quote. -/
def reprStr (s : String) : String :=
  let codes := s.toList.map Char.toNat
  let quote := if 39 ∈ codes ∧ 34 ∉ codes then 34 else 39
  let mark := String.singleton (Char.ofNat quote)
  mark ++ String.join (s.toList.map (reprChar quote)) ++ mark

/-- The characters before the first separator, and those after it. -/
def partitionChars (sep : Char) (cs : List Char) : String × String :=
  (String.ofList (cs.takeWhile (· ≠ sep)),
    String.ofList ((cs.dropWhile (· ≠ sep)).drop 1))

/-- `s.partition(sep)` without the separator. -/
def partition (sep : Char) (s : String) : String × String :=
  partitionChars sep s.toList

/-- Every character of a text without the separator is kept. -/
theorem ne_of_not_mem {sep : Char} {cs : List Char} (h : sep ∉ cs) :
    ∀ c ∈ cs, decide (c ≠ sep) = true := by
  intro c hc
  rw [decide_eq_true_iff]
  rintro rfl
  exact h hc

/-- Partitioning at a separator that the first part does not have. -/
theorem partitionChars_append {sep : Char} {before after : String}
    (h : sep ∉ before.toList) :
    partitionChars sep (before.toList ++ sep :: after.toList) =
      (before, after) := by
  have hkeep := ne_of_not_mem h
  unfold partitionChars
  rw [List.takeWhile_append_of_pos hkeep, List.dropWhile_append_of_pos hkeep]
  simp

theorem partitionChars_of_not_mem {sep : Char} {text : String}
    (h : sep ∉ text.toList) : partitionChars sep text.toList = (text, "") := by
  have hkeep := ne_of_not_mem h
  unfold partitionChars
  rw [List.takeWhile_eq_self_iff.mpr hkeep, List.dropWhile_eq_nil_iff.mpr hkeep]
  simp

/-- A text is put together again from its parts, provided that something follows
the separator. -/
theorem append_of_partitionChars {sep : Char} {cs : List Char}
    {before after : String} (h : partitionChars sep cs = (before, after))
    (hafter : after ≠ "") :
    cs = before.toList ++ sep :: after.toList := by
  obtain ⟨rfl, rfl⟩ := Prod.mk.inj h
  cases hdrop : cs.dropWhile (· ≠ sep) with
  | nil =>
      rw [hdrop] at hafter
      exact absurd rfl hafter
  | cons c rest =>
      have hne : cs.dropWhile (· ≠ sep) ≠ [] := by
        rw [hdrop]
        simp
      have hc : c = sep := by
        have hnot := List.head_dropWhile_not (fun c => decide (c ≠ sep)) hne
        simp only [hdrop, List.head_cons, decide_eq_false_iff_not] at hnot
        exact not_not.mp hnot
      have hsplit : cs.takeWhile (· ≠ sep) ++ cs.dropWhile (· ≠ sep) = cs :=
        List.takeWhile_append_dropWhile
      rw [hdrop, hc] at hsplit
      simpa using hsplit.symm

/-- `s.split(sep)` -/
def split (sep : Char) (s : String) : List String :=
  (s.toList.splitOn sep).map String.ofList

/-- `c.isspace()` -/
def isSpace (c : Char) : Bool :=
  let n := c.toNat
  9 ≤ n && n ≤ 13 || 28 ≤ n && n ≤ 32 || n == 0x85 || n == 0xA0 || n == 0x1680 ||
    0x2000 ≤ n && n ≤ 0x200A || n == 0x2028 || n == 0x2029 || n == 0x202F ||
    n == 0x205F || n == 0x3000

/-- `s.strip()` -/
def strip (s : String) : String :=
  String.ofList
    (((s.toList.dropWhile isSpace).reverse.dropWhile isSpace).reverse)

/-- What is joined is split into the same parts. -/
theorem split_intercalate {sep : Char} {parts : List String}
    (hsep : ∀ part ∈ parts, sep ∉ part.toList) (hne : parts ≠ []) :
    split sep (String.intercalate (String.singleton sep) parts) = parts := by
  have hchars : ∀ part ∈ parts.map String.toList, sep ∉ part := by
    intro part hpart
    obtain ⟨text, htext, rfl⟩ := List.mem_map.mp hpart
    exact hsep text htext
  unfold split
  rw [String.toList_intercalate, String.toList_singleton,
    List.splitOn_intercalate sep hchars (by simpa using hne), List.map_map]
  simp

/-- Values that can be a dictionary key, with the text a `KeyError` shows. -/
class PyKey (κ : Type) where
  render : κ → String

instance : PyKey String :=
  ⟨reprStr⟩

instance : PyKey (String × String) :=
  ⟨fun p => "(" ++ reprStr p.1 ++ ", " ++ reprStr p.2 ++ ")"⟩

/-- `d[k]`. -/
def getItem {κ ν : Type} [DecidableEq κ] [PyKey κ] (d : Dict κ ν) (k : κ) :
    Except PyError ν :=
  match d.get? k with
  | some v => .ok v
  | none => .error (.keyError (PyKey.render k))

theorem getItem_eq_ok_iff {κ ν : Type} [DecidableEq κ] [PyKey κ]
    {d : Dict κ ν} {k : κ} {v : ν} :
    getItem d k = .ok v ↔ d.get? k = some v := by
  unfold getItem
  cases d.get? k <;> simp

/-- Subscripts see lookups only. -/
theorem getItem_congr {κ ν : Type} [DecidableEq κ] [PyKey κ] {d e : Dict κ ν}
    {k : κ} (h : d.get? k = e.get? k) :
    getItem d k = getItem e k := by
  unfold getItem
  rw [h]

/-- A required entry of a JSON object. -/
def required {ν : Type} (key : String) : Option ν → Except PyError ν
  | some v => .ok v
  | none => .error (.keyError (reprStr key))

theorem required_eq_ok_iff {ν : Type} {key : String} {x : Option ν} {v : ν} :
    required key x = .ok v ↔ x = some v := by
  cases x <;> simp [required]

/-- The places where the matching code walks a set of ids. -/
inductive SetSite where
  | sharedIds
  | neighbours
  | members
  | groupA
  | groupB
  | leftA
  | leftB
deriving DecidableEq, Repr

/-- The iteration orders of one process: at each site, each added value once. -/
structure HashOrder where
  iter : SetSite → List String → List String
  iter_perm : ∀ site added, (iter site added).Perm added.dedup

namespace HashOrder

variable (order : HashOrder)

@[simp] theorem mem_iter {site : SetSite} {added : List String} {x : String} :
    x ∈ order.iter site added ↔ x ∈ added := by
  rw [(order.iter_perm site added).mem_iff, List.mem_dedup]

theorem nodup_iter (site : SetSite) (added : List String) :
    (order.iter site added).Nodup :=
  ((order.iter_perm site added).nodup_iff).mpr (List.nodup_dedup added)

theorem iter_perm_of_nodup {site : SetSite} {added : List String}
    (h : added.Nodup) :
    (order.iter site added).Perm added := by
  have hperm := order.iter_perm site added
  rwa [List.Nodup.dedup h] at hperm

/-- A process that walks every set in the order of the additions. -/
def insertion : HashOrder where
  iter := fun _ added => added.dedup
  iter_perm := fun _ _ => List.Perm.refl _

/-- A process that walks every set against the order of the additions. -/
def reversed : HashOrder where
  iter := fun _ added => added.dedup.reverse
  iter_perm := fun _ added => List.reverse_perm added.dedup

end HashOrder

end VectorMapChanges
