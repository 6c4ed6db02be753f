/-
# `Tavernmx.Shared.Json` — JSON values as the messages use them

Every message carries a `nlohmann::json` value chosen by the peer, so the
library's error behaviour is part of the protocol.  This module fixes what the
rest of the development relies on, and nothing else of the library:

| operation | on the right shape | otherwise |
| :-- | :-- | :-- |
| `get<std::string>()` | the string | throws `type_error` |
| `get<int32_t>()` | the number or boolean, cast | throws `type_error` |
| enumeration `get` | the number, cast | throws `type_error` (booleans too) |
| cast of a double | its integer part | **no defined result** if the type does not have it |
| const `operator[](key)` on an object | the member | **no defined result** if the key is absent |
| const `operator[](key)` elsewhere | | throws `type_error` |

Two of the rows are why `Fault` has two constructors: an exception is something a
`catch` clause of the program can stop, a failed `assert` or an operation with no
defined result is not.

Two simplifications, both invisible to the operations above: the signed and
unsigned integer types of the library are one constructor (it compares them as
numbers and casts them alike), and an object is its list of members in
iteration order, which `set` keeps sorted by key as `std::map` does.  A
`std::string` is a `String` whose characters stand for the bytes.
-/
import Mathlib.Algebra.Group.Int.Defs
import Mathlib.Algebra.Group.Nat.Defs
import Mathlib.Data.List.Basic
import Mathlib.Data.String.Basic

namespace Tavernmx

/-! ## Faults -/

/-- The exception types whose `catch` clauses matter here. -/
inductive CppException where
  | typeError
  | parseError
  | transportError
  deriving DecidableEq, Repr

/-- How a piece of the program can fail to reach its end. -/
inductive Fault where
  | thrown (e : CppException)
  /-- A failed `assert`, or an operation that has no defined result. -/
  | assertion
  deriving DecidableEq, Repr

/-- A computation of the program: a result, or the fault that ended it. -/
abbrev Exec (α : Type) := Except Fault α

/-- `assert(cond)`, in a build that has assertions. -/
def assertThat (cond : Bool) : Exec Unit :=
  if cond then pure () else throw .assertion

/-! ## Values -/

inductive Json where
  | null
  | boolean (b : Bool)
  | integer (n : Int)
  /-- A double, as its bit pattern. -/
  | float (bits : BitVec 64)
  | string (s : String)
  | binary (bytes : List UInt8)
  | array (items : List Json)
  | object (members : List (String × Json))
  deriving Repr, Inhabited

namespace Json

def isNull : Json → Bool
  | null => true
  | _ => false

/-- `is_primitive()`: everything but arrays and objects. -/
def isPrimitive : Json → Bool
  | array _ | object _ => false
  | _ => true

/-- The member named `key`, when the value is an object that contains it. -/
def find? (v : Json) (key : String) : Option Json :=
  match v with
  | object members => members.lookup key
  | _ => none

/-- `contains(key)`. -/
def contains (v : Json) (key : String) : Bool := (v.find? key).isSome

/-- Const `operator[](key)`. -/
def subscript (v : Json) (key : String) : Exec Json :=
  match v with
  | object members =>
    match members.lookup key with
    | some value => pure value
    | none => throw .assertion
  | _ => throw (.thrown .typeError)

/-- The integer part of a double given by its bits. -/
def truncDouble (bits : BitVec 64) : Int :=
  let exponent := (bits.toNat / 2 ^ 52) % 2048
  let fraction := bits.toNat % 2 ^ 52
  let magnitude : Nat := if exponent = 0 then 0 else (2 ^ 52 + fraction) * 2 ^ exponent / 2 ^ 1075
  if bits.msb then -(magnitude : Int) else magnitude

/-- Whether `int32_t` has the integer part of a double.  It has none of a NaN or an
infinity. -/
def fitsInt32 (bits : BitVec 64) : Bool :=
  decide (-2 ^ 31 ≤ truncDouble bits ∧ truncDouble bits < 2 ^ 31)

/-- `static_cast<int32_t>` of a double.  The language defines no result where `int32_t`
does not have the integer part. -/
def castDouble (bits : BitVec 64) : Exec Int32 :=
  if fitsInt32 bits then pure (Int32.ofInt (truncDouble bits)) else throw .assertion

/-- `get<std::string>()`. -/
def getString : Json → Exec String
  | string s => pure s
  | _ => throw (.thrown .typeError)

/-- `get<int32_t>()`. -/
def getInt32 : Json → Exec Int32
  | integer n => pure (Int32.ofInt n)
  | float bits => castDouble bits
  | boolean b => pure (if b then 1 else 0)
  | _ => throw (.thrown .typeError)

/-- `get` at an enumeration over `int32_t`, which accepts numbers only. -/
def getEnum : Json → Exec Int32
  | integer n => pure (Int32.ofInt n)
  | float bits => castDouble bits
  | _ => throw (.thrown .typeError)

/-- `value(key, default)`, read with `get`. -/
def valueOr {α : Type} (get : Json → Exec α) (v : Json) (key : String) (dflt : α) : Exec α :=
  match v with
  | object members =>
    match members.lookup key with
    | some value => get value
    | none => pure dflt
  | _ => throw (.thrown .typeError)

/-- The key and value pairs `items()` iterates over. -/
def items : Json → List (String × Json)
  | null => []
  | object members => members
  | array elems => elems.zipIdx.map fun e => (toString e.2, e.1)
  | v => [("", v)]

/-! ## Building objects -/

/-- Insertion into an object's members, in key order. -/
def insertMember (key : String) (value : Json) : List (String × Json) → List (String × Json)
  | [] => [(key, value)]
  | m :: ms =>
    if key = m.1 then (key, value) :: ms
    else if key < m.1 then (key, value) :: m :: ms
    else m :: insertMember key value ms

/-- Assignment through the non-const `operator[](key)`, on an object or on a
null value, which becomes one.  (Other shapes throw; no caller has them.) -/
def set (v : Json) (key : String) (value : Json) : Json :=
  match v with
  | object members => object (insertMember key value members)
  | _ => object [(key, value)]

/-- A braced list of pairs. -/
def ofPairs (pairs : List (String × Json)) : Json :=
  pairs.foldl (fun v p => v.set p.1 p.2) (object [])

@[simp] theorem find?_object (members : List (String × Json)) (key : String) :
    (object members).find? key = members.lookup key := rfl

@[simp] theorem set_object (members : List (String × Json)) (key : String) (value : Json) :
    (object members).set key value = object (insertMember key value members) := rfl

@[simp] theorem insertMember_nil (key : String) (value : Json) :
    insertMember key value [] = [(key, value)] := rfl

theorem insertMember_same (key : String) (value old : Json) (ms : List (String × Json)) :
    insertMember key value ((key, old) :: ms) = (key, value) :: ms := by
  rw [insertMember, if_pos rfl]

theorem insertMember_before {key key' : String} (h : key < key') (value old : Json)
    (ms : List (String × Json)) :
    insertMember key value ((key', old) :: ms) = (key, value) :: (key', old) :: ms := by
  rw [insertMember, if_neg (ne_of_lt h), if_pos h]

theorem insertMember_after {key key' : String} (h : key' < key) (value old : Json)
    (ms : List (String × Json)) :
    insertMember key value ((key', old) :: ms) = (key', old) :: insertMember key value ms := by
  rw [insertMember, if_neg (ne_of_gt h), if_neg (lt_asymm h)]

theorem lookup_cons (key other : String) (value : Json) (ms : List (String × Json)) :
    ((key, value) :: ms).lookup other = if other = key then some value else ms.lookup other := by
  rw [List.lookup_cons]
  by_cases h : other = key
  · simp [h]
  · have hne : (other == key) = false := by simpa using h
    simp [h, hne]

/-- Reading after a write. -/
@[simp] theorem lookup_insertMember (key other : String) (value : Json) :
    ∀ ms : List (String × Json), (insertMember key value ms).lookup other =
      if other = key then some value else ms.lookup other
  | [] => lookup_cons key other value []
  | (k, v) :: ms => by
      rw [insertMember]
      split
      next hk =>
        obtain rfl : key = k := hk
        by_cases h : other = key <;> simp [lookup_cons, h]
      next hk =>
        split
        · simp [lookup_cons]
        · have hne : key ≠ k := hk
          rw [lookup_cons, lookup_cons, lookup_insertMember key other value ms]
          by_cases h : other = key
          · simp [h, hne]
          · simp [h]

/-- A fresh key adds one member and disturbs none. -/
theorem insertMember_perm (key : String) (value : Json) :
    ∀ (ms : List (String × Json)), key ∉ ms.map Prod.fst →
      (insertMember key value ms).Perm ((key, value) :: ms)
  | [], _ => List.Perm.refl _
  | m :: ms, h => by
      simp only [List.map_cons, List.mem_cons, not_or] at h
      simp only [insertMember, if_neg h.1]
      split
      · exact List.Perm.refl _
      · exact ((insertMember_perm key value ms h.2).cons m).trans (List.Perm.swap _ _ _)

theorem mem_insertMember {key : String} {value : Json} {m : String × Json} :
    ∀ {ms : List (String × Json)}, m ∈ insertMember key value ms → m = (key, value) ∨ m ∈ ms
  | [], h => Or.inl (List.mem_singleton.mp h)
  | m' :: ms, h => by
      rw [insertMember] at h
      split at h
      · exact (List.mem_cons.mp h).imp_right (List.mem_cons_of_mem _)
      · split at h
        · exact List.mem_cons.mp h
        · rcases List.mem_cons.mp h with rfl | h
          · exact Or.inr List.mem_cons_self
          · exact (mem_insertMember h).imp_right (List.mem_cons_of_mem _)

/-- The keys of the members are in order. -/
def Sorted (ms : List (String × Json)) : Prop := ms.Pairwise fun m m' => m.1 < m'.1

/-- Writing a member keeps the members in order. -/
theorem insertMember_sorted (key : String) (value : Json) {ms : List (String × Json)}
    (h : Sorted ms) : Sorted (insertMember key value ms) := by
  induction ms with
  | nil => exact List.pairwise_singleton _ _
  | cons m ms ih =>
      obtain ⟨hfirst, hrest⟩ := List.pairwise_cons.mp h
      rw [insertMember]
      split
      case isTrue hsame =>
        subst hsame
        exact List.pairwise_cons.mpr ⟨hfirst, hrest⟩
      case isFalse hne =>
        split
        case isTrue hlt =>
          refine List.pairwise_cons.mpr ⟨?_, h⟩
          intro m' hm'
          rcases List.mem_cons.mp hm' with rfl | hm'
          · exact hlt
          · exact lt_trans hlt (hfirst m' hm')
        case isFalse hnlt =>
          refine List.pairwise_cons.mpr ⟨?_, ih hrest⟩
          intro m' hm'
          rcases mem_insertMember hm' with rfl | hm'
          · exact lt_of_le_of_ne (not_lt.mp hnlt) (Ne.symm hne)
          · exact hfirst m' hm'

end Json

end Tavernmx
