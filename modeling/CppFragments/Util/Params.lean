import CppFragments.Util.Machine

/-! # The parameters of a packet

The map `params_` of `util/ws/ws_packet.h`, with its two setters and its two
getters. The templates convert by writing to a stream and reading it again.
-/

namespace CppFragments

/-- `isspace`, as the extraction from a stream uses it. -/
def isSpace (char : UInt8) : Bool :=
  char = 0x20 || (0x09 ≤ char && char ≤ 0x0D)

namespace StrHelper

/-- `valueOf<std::string>` of a text: it is written as it is, and read back from
behind the leading whitespace to the next. -/
def valueOf (text : List UInt8) : List UInt8 :=
  (text.dropWhile isSpace).takeWhile fun char => !isSpace char

variable {text : List UInt8}

theorem not_isSpace_of_mem_valueOf {char : UInt8} (hmem : char ∈ valueOf text) :
    isSpace char = false := by
  have hnot := List.mem_takeWhile_imp hmem
  simpa using hnot

theorem valueOf_of_no_space (hnone : ∀ char ∈ text, isSpace char = false) :
    valueOf text = text := by
  have hdrop : text.dropWhile isSpace = text := by
    cases text with
    | nil => rfl
    | cons char rest => simp [hnone char List.mem_cons_self]
  rw [valueOf, hdrop, List.takeWhile_eq_self_iff]
  intro char hmem
  rw [hnone char hmem]
  rfl

/-- A text comes back whole exactly if it is one word or empty. -/
theorem valueOf_eq_iff : valueOf text = text ↔ ∀ char ∈ text, isSpace char = false := by
  constructor
  · intro hwhole char hmem
    rw [← hwhole] at hmem
    exact not_isSpace_of_mem_valueOf hmem
  · exact valueOf_of_no_space

@[simp] theorem valueOf_valueOf (text : List UInt8) : valueOf (valueOf text) = valueOf text :=
  valueOf_of_no_space fun _ => not_isSpace_of_mem_valueOf

end StrHelper

/-- `params_`. -/
abbrev Params := AList fun _ : List UInt8 => List UInt8

namespace Params

def hasParam (params : Params) (name : List UInt8) : Bool :=
  (params.lookup name).isSome

def getParam (params : Params) (name : List UInt8) : List UInt8 :=
  match params.lookup name with
  | some value => value
  | none => []

/-- `get_param<std::string>`. -/
def getParamAs (params : Params) (name : List UInt8) : List UInt8 :=
  StrHelper.valueOf (params.getParam name)

/-- The two overloads of `set_param`. -/
inductive Setter
  /-- For a `std::string`. -/
  | plain
  /-- The template, for a C string or an array of characters. -/
  | template
  deriving DecidableEq, Repr

def setParam (params : Params) (setter : Setter) (name value : List UInt8) : Params :=
  match setter with
  | .plain => params.insert name value
  | .template => params.insert name (StrHelper.valueOf value)

/-! ## What a stored text reads back as -/

/-- A text stored under the name is returned by both getters, and nothing else
has changed. -/
structure Survives (setter : Setter) (params : Params) (name value : List UInt8) : Prop where
  getParam : (params.setParam setter name value).getParam name = value
  getParamAs : (params.setParam setter name value).getParamAs name = value
  hasParam_other : ∀ other, other ≠ name →
    (params.setParam setter name value).hasParam other = params.hasParam other
  getParam_other : ∀ other, other ≠ name →
    (params.setParam setter name value).getParam other = params.getParam other

section Lookup

variable {params : Params} {setter : Setter} {name other value : List UInt8}

theorem lookup_setParam_ne (hne : other ≠ name) :
    (params.setParam setter name value).lookup other = params.lookup other := by
  cases setter <;> exact AList.lookup_insert_ne hne

/-- Whichever setter is used, the reading getter returns the first word. -/
theorem getParamAs_setParam :
    (params.setParam setter name value).getParamAs name = StrHelper.valueOf value := by
  cases setter <;> simp [getParamAs, getParam, setParam]

theorem getParam_setParam_of_word (hword : StrHelper.valueOf value = value) :
    (params.setParam setter name value).getParam name = value := by
  cases setter <;> simp [getParam, setParam, hword]

end Lookup

/-- **A text survives exactly when there is no whitespace in it**, whichever of
the setters stores it. -/
theorem survives_iff (setter : Setter) (params : Params) (name value : List UInt8) :
    Survives setter params name value ↔ ∀ char ∈ value, isSpace char = false := by
  rw [← StrHelper.valueOf_eq_iff]
  constructor
  · intro hsurvives
    rw [← getParamAs_setParam]
    exact hsurvives.getParamAs
  · intro hword
    refine ⟨getParam_setParam_of_word hword, getParamAs_setParam.trans hword, ?_, ?_⟩
    · intro other hne
      rw [hasParam, hasParam, lookup_setParam_ne hne]
    · intro other hne
      rw [getParam, getParam, lookup_setParam_ne hne]

/-- The text "a b", by either setter. -/
theorem twoWords_not_survives :
    ¬∃ setter, Survives setter ∅ (literal "k") (literal "a b") := by
  intro hsurvives
  rcases hsurvives with ⟨setter, hsurvives⟩
  have hread := hsurvives.getParamAs
  rw [getParamAs_setParam] at hread
  exact absurd hread (by decide)

end Params

end CppFragments
