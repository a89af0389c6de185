/-
# Theory.CString -- C strings, `char` arrays and the string functions over them

A `CStr` is what a `char *` denotes: the bytes before the first NUL.  That no NUL
is among them is a field, so a string that C would read differently cannot be
built.  `CStr.ofBytes` is the string that starts at some memory and is the only
place where bytes are dropped at a NUL; `CBuf cap` is a `char[cap + 1]` holding a
string, and `CBuf.printf` (`snprintf` with `%s`) the only way to fill one, so a
string that does not fit its array cannot be built either.

The functions are those of the C library in the "C" locale: `strcasecmp` and
`strcasestr` fold ASCII letters only, `isspace` is the six ASCII blanks, and
`strtol` saturates at the 64-bit bounds.
-/
import Mathlib.Algebra.Ring.Int.Defs
import Mathlib.Data.List.Infix
import Mathlib.Data.List.TakeWhile
import Mathlib.Tactic.Common

namespace SpnavBridge.Theory

set_option autoImplicit false

/-- The bytes of a literal. -/
def ascii (s : String) : List UInt8 := s.toByteArray.data.toList

/-! ## Strings -/

/-- A C string: its bytes, up to the terminating NUL. -/
structure CStr where
  bytes : List UInt8
  noNul : 0 ∉ bytes
  deriving DecidableEq

namespace CStr

@[ext] theorem ext {s t : CStr} (same : s.bytes = t.bytes) : s = t := by
  cases s; cases t; cases same; rfl

/-- The string that starts at the memory `l`: its bytes before the first NUL. -/
def ofBytes (l : List UInt8) : CStr where
  bytes := l.takeWhile (· != 0)
  noNul := fun inside => by simpa using List.mem_takeWhile_imp inside

theorem bytes_ofBytes {l : List UInt8} (noNul : 0 ∉ l) : (ofBytes l).bytes = l :=
  List.takeWhile_eq_self_iff.mpr fun _ mem => bne_iff_ne.mpr fun zero => noNul (zero ▸ mem)

/-- A string literal. -/
def lit (s : String) : CStr := ofBytes (ascii s)

def empty : CStr := ⟨[], by simp⟩

def length (s : CStr) : Nat := s.bytes.length

def append (s t : CStr) : CStr :=
  ⟨s.bytes ++ t.bytes, by simp [s.noNul, t.noNul]⟩

def take (n : Nat) (s : CStr) : CStr :=
  ⟨s.bytes.take n, fun inside => s.noNul (List.mem_of_mem_take inside)⟩

def dropWhile (p : UInt8 → Bool) (s : CStr) : CStr :=
  ⟨s.bytes.dropWhile p, fun inside => s.noNul ((List.dropWhile_sublist p).subset inside)⟩

def takeWhile (p : UInt8 → Bool) (s : CStr) : CStr :=
  ⟨s.bytes.takeWhile p, fun inside => s.noNul ((List.takeWhile_sublist p).subset inside)⟩

def drop (n : Nat) (s : CStr) : CStr :=
  ⟨s.bytes.drop n, fun inside => s.noNul (List.mem_of_mem_drop inside)⟩

@[simp] theorem bytes_take (n : Nat) (s : CStr) : (s.take n).bytes = s.bytes.take n := rfl

@[simp] theorem bytes_empty : empty.bytes = [] := rfl

theorem take_of_length_le {n : Nat} {s : CStr} (le : s.length ≤ n) : s.take n = s :=
  ext (List.take_of_length_le le)

/-- The parts before and after the first `sep`, as `strchr` finds it. -/
def cut (sep : UInt8) (s : CStr) : Option (CStr × CStr) :=
  if sep ∈ s.bytes then
    some (⟨s.bytes.takeWhile (· != sep), fun inside =>
        s.noNul ((List.takeWhile_sublist _).subset inside)⟩,
      ⟨(s.bytes.dropWhile (· != sep)).tail, fun inside =>
        s.noNul ((List.dropWhile_sublist _).subset (List.mem_of_mem_tail inside))⟩)
  else none

theorem cut_eq_some {sep : UInt8} {s front back : CStr} :
    s.cut sep = some (front, back) ↔ s.bytes = front.bytes ++ sep :: back.bytes ∧ sep ∉ front.bytes := by
  constructor
  · intro found
    unfold cut at found
    split_ifs at found with inside
    injection found with found
    injection found with front_ back_
    subst front_ back_
    refine ⟨?_, fun mem => by simpa using List.mem_takeWhile_imp mem⟩
    have rest : s.bytes.dropWhile (· != sep) ≠ [] := by
      rw [Ne, List.dropWhile_eq_nil_iff]
      intro all
      simpa using all sep inside
    have head : (s.bytes.dropWhile (· != sep)).head rest = sep := by
      simpa using List.head_dropWhile_not (· != sep) rest
    have tail : sep :: (s.bytes.dropWhile (· != sep)).tail = s.bytes.dropWhile (· != sep) := by
      simpa only [head] using List.cons_head_tail rest
    rw [tail, List.takeWhile_append_dropWhile]
  · rintro ⟨whole, clean⟩
    have passes : ∀ b ∈ front.bytes, (b != sep) = true := by
      intro b mem
      exact bne_iff_ne.mpr fun same => clean (same ▸ mem)
    rw [cut, if_pos (by simp [whole])]
    congr 2
    · ext1
      simp only [whole]
      rw [List.takeWhile_append_of_pos passes]
      simp
    · ext1
      simp only [whole]
      rw [List.dropWhile_append_of_pos passes]
      simp

end CStr

/-! ## Arrays -/

/-- A `char[cap + 1]` holding a string. -/
structure CBuf (cap : Nat) where
  str : CStr
  fits : str.length ≤ cap
  deriving DecidableEq

namespace CBuf

variable {cap : Nat}

theorem ext_bytes {a b : CBuf cap} (same : a.str.bytes = b.str.bytes) : a = b := by
  obtain ⟨s, fits⟩ := a
  obtain ⟨t, fits'⟩ := b
  obtain rfl : s = t := CStr.ext same
  rfl

/-- `snprintf(dst, cap + 1, "%s", s)`. -/
def printf (cap : Nat) (s : CStr) : CBuf cap :=
  ⟨s.take cap, by simp only [CStr.length, CStr.bytes_take, List.length_take]; omega⟩

/-- An array of zero bytes. -/
def zeroed (cap : Nat) : CBuf cap := ⟨.empty, by simp [CStr.length]⟩

theorem printf_of_fits {s : CStr} (fits : s.length ≤ cap) : (printf cap s).str = s :=
  CStr.take_of_length_le fits

end CBuf

/-! ## Characters and numbers -/

/-- `tolower` in the "C" locale. -/
def tolower (b : UInt8) : UInt8 := if 65 ≤ b ∧ b ≤ 90 then b + 32 else b

/-- `isspace` in the "C" locale: tab, LF, VT, FF, CR and the space. -/
def isspace (b : UInt8) : Bool := b = 32 || (9 ≤ b && b ≤ 13)

def isdigit (b : UInt8) : Bool := 48 ≤ b && b ≤ 57

/-- `strcasecmp(s, t) == 0`. -/
def strcasecmp (s t : CStr) : Bool := s.bytes.map tolower == t.bytes.map tolower

/-- `strcasestr(s, t) != NULL`. -/
def strcasestr (s t : CStr) : Bool := decide (t.bytes.map tolower <:+: s.bytes.map tolower)

/-- `LONG_MAX`, for a 64-bit `long`. -/
def longMax : Int := 2 ^ 63 - 1

/-- `strtol(s, NULL, 10)`: blanks, a sign, digits; saturating, and 0 without digits. -/
def strtol (s : CStr) : Int :=
  let value (digits : List UInt8) : Int :=
    (digits.takeWhile isdigit).foldl (fun n d => 10 * n + ((d.toNat : Int) - 48)) 0
  match s.bytes.dropWhile isspace with
  | 45 :: digits => max (-longMax - 1) (-value digits)
  | 43 :: digits => min longMax (value digits)
  | digits => min longMax (value digits)

example : strtol (.lit " 12x") = 12 := by decide

example : strcasecmp (.lit "oRIGIN") (.lit "Origin") = true := by decide

end SpnavBridge.Theory
