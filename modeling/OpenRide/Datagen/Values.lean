import OpenRide.Datagen.Slug
import OpenRide.Lib.Double
import OpenRide.Lib.Fallible

/-!
# Reading authored values

An author may write any JSON value anywhere, so every field of a specification is read by a
conversion that may fail: `int`, `float`, `str`, `isinstance`.  What is computed from numbers is
modelled exactly, over the rationals; an infinity or a NaN has no place there, and where one would
be computed with, the computation ends with `inexact`, which nothing catches.

What is left open is collected in `PyHost`: how values print, which texts are numerals, and the
table of upper-case letters, with the few laws that hold of them.
-/

namespace OpenRide.Datagen

open Lib

/-! ## Exceptions -/

/-- An exception.  `validation` is a kind of `ValueError`.  `inexact` is not one of the language: it
ends a computation with an infinity or a NaN. -/
inductive PyError where
  | validation (message : String)
  | valueError (message : String)
  | typeError
  | keyError
  | indexError
  | attributeError
  | overflow
  | inexact
deriving DecidableEq

/-- `try: ... except (TypeError, ValueError): return None`. -/
def caught {α : Type} : Except PyError α → Except PyError (Option α)
  | .ok a => .ok (some a)
  | .error (.validation _) => .ok none
  | .error (.valueError _) => .ok none
  | .error .typeError => .ok none
  | .error e => .error e

@[simp] theorem caught_ok {α : Type} (a : α) : caught (.ok a : Except PyError α) = .ok (some a) :=
  rfl

/-- `except ValueError as exc: raise SpecValidationError(str(exc))`. -/
def PyError.toValidation : PyError → PyError
  | .valueError message => .validation message
  | e => e

/-! ## The language -/

namespace Raw

/-- `isinstance(value, str)`. -/
def isStr : Raw → Bool
  | str _ => true
  | _ => false

/-- `a or b`. -/
def orElse (a b : Raw) : Raw := if a.truthy then a else b

/-- `value if isinstance(value, dict) else {}`. -/
def asDict : Raw → List (String × Raw)
  | dict entries => entries
  | _ => []

/-- `entries.get(key, default)`. -/
def fieldD (entries : List (String × Raw)) (key : String) (default : Raw) : Raw :=
  (Dict.lookupIn key entries).getD default

/-- Is this `None`? -/
def isNull : Raw → Bool
  | null => true
  | _ => false

/-- `type(value).__name__`. -/
def typeName : Raw → String
  | .null => "NoneType"
  | .bool _ => "bool"
  | .int _ => "int"
  | .float _ => "float"
  | .str _ => "str"
  | .list _ => "list"
  | .dict _ => "dict"

/-- A number as a JSON value. -/
def num (q : ℚ) : Raw := float (.fin q)

@[simp] theorem truthy_str {s : String} : (str s).truthy = true ↔ s ≠ "" := by
  simp [truthy]

theorem orElse_of_truthy {a b : Raw} (h : a.truthy = true) : a.orElse b = a := by
  rw [orElse, if_pos h]

@[simp] theorem orElse_str {s : String} (h : s ≠ "") (b : Raw) : (str s).orElse b = str s :=
  orElse_of_truthy (truthy_str.mpr h)

@[simp] theorem orElse_null (b : Raw) : null.orElse b = b := rfl

/-! ### Fields -/

theorem field_setIn (entries : List (String × Raw)) (key x : String) (v : Raw) :
    field (Dict.setIn key v entries) x = if x = key then v else field entries x := by
  rw [field, Dict.lookupIn_setIn]
  split
  · rfl
  · rfl

@[simp] theorem field_setIn_self (entries : List (String × Raw)) (key : String) (v : Raw) :
    field (Dict.setIn key v entries) key = v := by
  rw [field_setIn, if_pos rfl]

theorem field_setIn_ne (entries : List (String × Raw)) {key x : String} (v : Raw) (h : x ≠ key) :
    field (Dict.setIn key v entries) x = field entries x := by
  rw [field_setIn, if_neg h]

theorem lookupIn_of_field {entries : List (String × Raw)} {key : String} {v : Raw}
    (h : field entries key = v) (hv : v.isNull = false) : Dict.lookupIn key entries = some v := by
  rw [field] at h
  cases hl : Dict.lookupIn key entries with
  | none =>
    rw [hl] at h
    rw [← h] at hv
    cases hv
  | some w =>
    rw [hl] at h
    exact congrArg some h

/-- Writing a field that is there already changes nothing. -/
theorem setIn_of_field {entries : List (String × Raw)} {key : String} {v : Raw}
    (h : field entries key = v) (hv : v.isNull = false) : Dict.setIn key v entries = entries :=
  Dict.setIn_of_lookupIn (lookupIn_of_field h hv)

end Raw

/-- How the language prints values, reads numerals and writes upper-case letters.  A letter has an
upper case of one or more letters, which is upper case itself; white space appears in no upper case
of anything else; and the small letters of ASCII have the capital ones. -/
structure PyHost extends PyText where
  /-- `format(x, "g")`. -/
  general : ℚ → String
  /-- The value of `int(text)`, if the text is a numeral. -/
  intText : String → Option ℤ
  /-- The value of `float(text)`, if the text is a numeral. -/
  floatText : String → Option Double
  /-- `str.upper` of one character. -/
  upper : Char → List Char
  str_ne_empty : ∀ v : Raw, v.isStr = false → str v ≠ ""
  upper_ne_nil : ∀ c, upper c ≠ []
  upper_upper : ∀ c, ∀ d ∈ upper c, upper d = [d]
  upper_space : ∀ c, isPySpace c = false → ∀ d ∈ upper c, isPySpace d = false
  upper_ascii : ∀ c, 'a' ≤ c → c ≤ 'z' → upper c = [Char.ofNat (c.toNat - 32)]

/-! ## Stripping -/

/-- `text.strip()`. -/
def pyStrip (s : String) : String := String.ofList (stripBy isPySpace s.toList)

@[simp] theorem pyStrip_pyStrip (s : String) : pyStrip (pyStrip s) = pyStrip s := by
  rw [pyStrip, pyStrip, String.toList_ofList, stripBy_stripBy]

theorem pyStrip_eq_self {s : String} (h : ∀ c ∈ s.toList, isPySpace c = false) : pyStrip s = s := by
  have hs : IsStripped isPySpace s.toList :=
    ⟨fun c hc ↦ h c (List.mem_of_mem_head? hc), fun c hc ↦ h c (List.mem_of_mem_getLast? hc)⟩
  rw [pyStrip, hs.stripBy_eq, String.ofList_toList]

/-! ## Numbers -/

section

variable (H : PyHost)

/-- `float(n)` of an integer: rounded to 53 binary digits, half to even; `none` if that is too
large. -/
@[irreducible] def floatOfInt (n : ℤ) : Option ℚ :=
  let unit := 2 ^ (n.natAbs.log2 - 52)
  let down := n.natAbs / unit
  let rest := n.natAbs % unit
  let rounded := if unit < 2 * rest ∨ unit = 2 * rest ∧ down % 2 = 1 then down + 1 else down
  if 2 ^ 1024 ≤ rounded * unit then none else some (n.sign * (rounded * unit : ℕ))

/-- `float(value)`. -/
def pyFloat : Raw → Except PyError Double
  | .bool b => .ok (.fin (if b then 1 else 0))
  | .int n =>
    match floatOfInt n with
    | some q => .ok (.fin q)
    | none => .error .overflow
  | .float x => .ok x
  | .str s =>
    match H.floatText s with
    | some x => .ok x
    | none =>
      let shown := H.repr (.str s)
      .error (.valueError s!"could not convert string to float: {shown}")
  | _ => .error .typeError

/-- `max(0.0, x)`, which makes a NaN zero. -/
def atLeastZero : Double → Except PyError ℚ
  | .fin q => .ok (max 0 q)
  | .posInf => .error .inexact
  | .negInf => .ok 0
  | .nan => .ok 0

/-- `int(value)`, which rounds towards zero. -/
def pyInt : Raw → Except PyError ℤ
  | .bool b => .ok (if b then 1 else 0)
  | .int n => .ok n
  | .float (.fin q) => .ok (q.num.tdiv q.den)
  | .float .nan => .error (.valueError "cannot convert float NaN to integer")
  | .float _ => .error .overflow
  | .str s =>
    match H.intText s with
    | some n => .ok n
    | none =>
      let shown := H.repr (.str s)
      .error (.valueError s!"invalid literal for int() with base 10: {shown}")
  | _ => .error .typeError

@[simp] theorem pyFloat_num (q : ℚ) : pyFloat H (.num q) = .ok (.fin q) := rfl

@[simp] theorem atLeastZero_fin (q : ℚ) : atLeastZero (.fin q) = .ok (max 0 q) := rfl

theorem nonneg_of_atLeastZero {x : Double} {q : ℚ} (h : atLeastZero x = .ok q) : 0 ≤ q := by
  cases x with
  | fin p =>
    cases h
    exact le_max_left _ _
  | posInf => cases h
  | negInf | nan =>
    cases h
    exact le_refl 0

@[simp] theorem pyInt_int (n : ℤ) : pyInt H (.int n) = .ok n := rfl

/-! ## Location codes -/

/-- `text.strip().upper()`. -/
def codeKey (s : String) : String :=
  String.ofList ((stripBy isPySpace s.toList).flatMap H.upper)

theorem isStripped_flatMap_upper {l : List Char} (h : IsStripped isPySpace l) :
    IsStripped isPySpace (l.flatMap H.upper) := by
  constructor
  · intro c hc
    cases l with
    | nil => cases hc
    | cons a l =>
      rw [List.flatMap_cons, List.head?_append_of_ne_nil _ (H.upper_ne_nil a)] at hc
      exact H.upper_space a (h.1 a rfl) c (List.mem_of_mem_head? hc)
  · intro c hc
    rcases List.eq_nil_or_concat l with rfl | ⟨l, a, rfl⟩
    · cases hc
    · rw [List.concat_eq_append, List.flatMap_append, List.flatMap_singleton,
        List.getLast?_append_of_ne_nil _ (H.upper_ne_nil a)] at hc
      exact H.upper_space a (h.2 a (by simp)) c (List.mem_of_mem_getLast? hc)

/-- **A location code is its own key.** -/
@[simp] theorem codeKey_codeKey (s : String) : codeKey H (codeKey H s) = codeKey H s := by
  have hstrip := isStripped_flatMap_upper H (isStripped_stripBy isPySpace s.toList)
  have hupper : ∀ l : List Char, (l.flatMap H.upper).flatMap H.upper = l.flatMap H.upper := by
    intro l
    rw [List.flatMap_assoc]
    refine List.flatMap_congr fun c _ ↦ ?_
    calc (H.upper c).flatMap H.upper = (H.upper c).flatMap fun d ↦ [d] :=
          List.flatMap_congr fun d hd ↦ H.upper_upper c d hd
      _ = H.upper c := by rw [List.flatMap_singleton']
  rw [codeKey, codeKey, String.toList_ofList, hstrip.stripBy_eq, hupper]

/-- The key that names a file is no location code: it has small letters. -/
theorem codeKey_ne_file (s : String) : codeKey H s ≠ "$file" := by
  intro h
  have hmem : 'f' ∈ (codeKey H s).toList := by
    rw [h]
    decide
  rw [codeKey, String.toList_ofList, List.mem_flatMap] at hmem
  obtain ⟨c, -, hc⟩ := hmem
  have hself := H.upper_upper c 'f' hc
  rw [H.upper_ascii 'f' (by decide) (by decide)] at hself
  exact absurd hself (by decide)

end

/-! ## A host of ASCII texts -/

/-- The upper case of a character of ASCII. -/
def asciiUpper (c : Char) : List Char :=
  if 'a' ≤ c ∧ c ≤ 'z' then [Char.ofNat (c.toNat - 32)] else [c]

theorem mem_asciiUpper {c d : Char} (h : d ∈ asciiUpper c) :
    d = c ∧ asciiUpper c = [c] ∨ ∃ n ∈ List.range 26, d = Char.ofNat (n + 65) := by
  rw [asciiUpper] at h ⊢
  split at h
  · next hsmall =>
    change 97 ≤ c.toNat ∧ c.toNat ≤ 122 at hsmall
    refine Or.inr ⟨c.toNat - 97, List.mem_range.mpr (by omega), ?_⟩
    rw [List.mem_singleton.mp h]
    congr 1
    omega
  · next hsmall => exact Or.inl ⟨List.mem_singleton.mp h, if_neg hsmall⟩

/-- A host on which texts are ASCII and no text is a numeral. -/
def asciiHost : PyHost where
  str _ := "?"
  repr _ := "?"
  general _ := "?"
  intText _ := none
  floatText _ := none
  upper := asciiUpper
  str_ne_empty _ _ := by decide
  upper_ne_nil c := by
    rw [asciiUpper]
    split
    · exact List.cons_ne_nil _ _
    · exact List.cons_ne_nil _ _
  upper_upper c d hd := by
    have hcapital : ∀ n ∈ List.range 26,
        asciiUpper (Char.ofNat (n + 65)) = [Char.ofNat (n + 65)] := by decide
    rcases mem_asciiUpper hd with ⟨rfl, hself⟩ | ⟨n, hn, rfl⟩
    · exact hself
    · exact hcapital n hn
  upper_space c hc d hd := by
    have hcapital : ∀ n ∈ List.range 26, isPySpace (Char.ofNat (n + 65)) = false := by decide
    rcases mem_asciiUpper hd with ⟨rfl, -⟩ | ⟨n, hn, rfl⟩
    · exact hc
    · exact hcapital n hn
  upper_ascii c h1 h2 := if_pos ⟨h1, h2⟩

end OpenRide.Datagen
