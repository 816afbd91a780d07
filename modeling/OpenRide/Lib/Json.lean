import Mathlib.Data.Int.Notation
import Mathlib.Data.List.Basic
import Mathlib.Data.Nat.Init

/-!
# JSON texts

The grammar of RFC 8259, and the texts of documents with one level of nesting: an object whose
values are scalars and arrays of scalars.

`IsText` is the grammar, on the characters of a text.  A number is kept as the parts the grammar
has for it, so that what a text says and how it is read as a machine number stay apart; `decimal`
writes an integer.  A document is written without whitespace, by `Document.text`, and
`Document.isText` says that this is a JSON text.
-/

set_option autoImplicit false

namespace Lib.Json

/-! ## Digits and numbers -/

/-- A digit as a character. -/
def digitChar (d : Fin 10) : Char := Char.ofNat (48 + d)

/-- The digit a character is. -/
def digitOf (c : Char) : Option (Fin 10) :=
  if 48 ≤ c.toNat ∧ c.toNat < 58 then some (Fin.ofNat 10 (c.toNat - 48)) else none

theorem digitOf_digitChar (d : Fin 10) : digitOf (digitChar d) = some d := by
  revert d
  decide

/-- The number some digits are of. -/
def digitsValue (l : List (Fin 10)) : ℕ := l.foldl (fun n d ↦ 10 * n + d) 0

theorem digitsValue_concat (l : List (Fin 10)) (d : Fin 10) :
    digitsValue (l ++ [d]) = 10 * digitsValue l + d := by
  simp [digitsValue]

/-- `1*DIGIT`. -/
structure Digits where
  digits : List (Fin 10)
  ne_nil : digits ≠ []
deriving DecidableEq

namespace Digits

def text (d : Digits) : List Char := d.digits.map digitChar

def value (d : Digits) : ℕ := digitsValue d.digits

/-- `int = zero / ( digit1-9 *DIGIT )`. -/
def IsInt (d : Digits) : Prop := d.digits.head? = some 0 → d.digits = [0]

instance (d : Digits) : Decidable d.IsInt := inferInstanceAs (Decidable (_ → _))

/-- The digits of a number, the most significant first. -/
def natDigits (n : ℕ) : List (Fin 10) :=
  if h : n < 10 then [⟨n, h⟩] else natDigits (n / 10) ++ [Fin.ofNat 10 n]

theorem natDigits_ne_nil (n : ℕ) : natDigits n ≠ [] := by
  rw [natDigits]
  split <;> simp

theorem natDigits_value (n : ℕ) : digitsValue (natDigits n) = n := by
  induction n using Nat.strong_induction_on with
  | _ n ih =>
    rw [natDigits]
    split
    · simp [digitsValue]
    · rw [digitsValue_concat, ih (n / 10) (by omega), Fin.val_ofNat]
      omega

theorem natDigits_head {n : ℕ} (h : (natDigits n).head? = some 0) : natDigits n = [0] := by
  induction n using Nat.strong_induction_on with
  | _ n ih =>
    rw [natDigits] at h ⊢
    split
    · next hn => simpa [hn] using h
    · next hn =>
      rw [dif_neg hn, List.head?_append_of_ne_nil _ (natDigits_ne_nil _)] at h
      have h0 : n / 10 = 0 := by
        rw [← natDigits_value (n / 10), ih _ (by omega) h]
        rfl
      omega

def ofNat (n : ℕ) : Digits := ⟨natDigits n, natDigits_ne_nil n⟩

@[simp] theorem value_ofNat (n : ℕ) : (ofNat n).value = n := natDigits_value n

end Digits

/-- `exp`. -/
structure Exponent where
  upper : Bool
  /-- `minus / plus`, if there is one. -/
  minus : Option Bool
  digits : Digits
deriving DecidableEq

/-- The sign of an exponent. -/
def signText : Option Bool → List Char
  | none => []
  | some true => ['-']
  | some false => ['+']

def Exponent.text (e : Exponent) : List Char :=
  (if e.upper then 'E' else 'e') :: (signText e.minus ++ e.digits.text)

/-- `number = [ minus ] int [ frac ] [ exp ]`. -/
structure Number where
  minus : Bool
  int : Digits
  isInt : int.IsInt
  frac : Option Digits
  exp : Option Exponent
deriving DecidableEq

namespace Number

def text (n : Number) : List Char :=
  (if n.minus then ['-'] else []) ++ n.int.text ++ (n.frac.elim [] fun d ↦ '.' :: d.text) ++
    n.exp.elim [] Exponent.text

/-- An integer in decimal. -/
def decimal (i : ℤ) : Number where
  minus := i < 0
  int := .ofNat i.natAbs
  isInt := Digits.natDigits_head
  frac := none
  exp := none

end Number

/-! ## The grammar -/

/-- `ws`. -/
def IsWs (t : List Char) : Prop := ∀ c ∈ t, c = ' ' ∨ c = '\t' ∨ c = '\n' ∨ c = '\r'

/-- `unescaped = %x20-21 / %x23-5B / %x5D-10FFFF`. -/
def Unescaped (c : Char) : Prop := 0x20 ≤ c.toNat ∧ c ≠ '"' ∧ c ≠ '\\'

instance (c : Char) : Decidable (Unescaped c) := inferInstanceAs (Decidable (_ ∧ _))

theorem all_unescaped {l : List Char} : l.all (Unescaped ·) = true ↔ ∀ c ∈ l, Unescaped c := by
  simp only [List.all_eq_true, decide_eq_true_eq]

/-- `HEXDIG`, of either case. -/
def IsHex (c : Char) : Prop := c ∈ "0123456789abcdefABCDEF".toList

/-- `char`. -/
inductive IsChar : List Char → Prop where
  | unescaped {c : Char} (h : Unescaped c) : IsChar [c]
  | escaped {c : Char} (h : c ∈ "\"\\/bfnrt".toList) : IsChar ['\\', c]
  | code {a b c d : Char} (h : ∀ x ∈ [a, b, c, d], IsHex x) : IsChar ['\\', 'u', a, b, c, d]

/-- `string`. -/
def IsString (t : List Char) : Prop :=
  ∃ chars : List (List Char), (∀ c ∈ chars, IsChar c) ∧ t = '"' :: chars.flatten ++ ['"']

/-- A text with whitespace around it. -/
structure Padded where
  before : List Char
  text : List Char
  after : List Char
  ws_before : IsWs before
  ws_after : IsWs after

namespace Padded

def full (p : Padded) : List Char := p.before ++ p.text ++ p.after

/-- A text as it is. -/
def bare (t : List Char) : Padded := ⟨[], t, [], by simp [IsWs], by simp [IsWs]⟩

@[simp] theorem bare_full (t : List Char) : (bare t).full = t := by simp [bare, full]

end Padded

/-- Texts with commas between them. -/
def join : List (List Char) → List Char
  | [] => []
  | t :: l => t ++ (l.map (',' :: ·)).flatten

/-- `value`. -/
inductive IsValue : List Char → Prop where
  | literal {t : List Char} (h : t ∈ ["null".toList, "true".toList, "false".toList]) : IsValue t
  | number (n : Number) : IsValue n.text
  | string {t : List Char} (h : IsString t) : IsValue t
  | array (ws : List Char) (hws : IsWs ws) (items : List Padded)
      (h : ∀ p ∈ items, IsValue p.text) :
      IsValue ('[' :: ws ++ join (items.map Padded.full) ++ [']'])
  | object (ws : List Char) (hws : IsWs ws) (members : List (Padded × Padded))
      (hkey : ∀ m ∈ members, IsString m.1.text) (h : ∀ m ∈ members, IsValue m.2.text) :
      IsValue ('{' :: ws ++ join (members.map fun m ↦ m.1.full ++ ':' :: m.2.full) ++ ['}'])

/-- `JSON-text = ws value ws`. -/
def IsText (t : List Char) : Prop := ∃ p : Padded, IsValue p.text ∧ t = p.full

/-! ## Documents with one level of nesting -/

/-- A string none of whose characters needs an escape. -/
structure Plain where
  chars : List Char
  unescaped : ∀ c ∈ chars, Unescaped c
deriving DecidableEq

namespace Plain

def text (s : Plain) : List Char := '"' :: s.chars ++ ['"']

theorem isString (s : Plain) : IsString s.text := by
  refine ⟨s.chars.map fun c ↦ [c], fun t ht ↦ ?_, ?_⟩
  · obtain ⟨c, hc, rfl⟩ := List.mem_map.mp ht
    exact .unescaped (s.unescaped c hc)
  · rw [← List.flatMap_def, List.flatMap_singleton', text]

end Plain

/-- A value without parts. -/
inductive Scalar where
  | null
  | num (n : Number)
  | str (s : Plain)
deriving DecidableEq

/-- A scalar, or an array of them. -/
inductive Item where
  | scalar (x : Scalar)
  | array (l : List Scalar)
deriving DecidableEq

/-- The members of an object. -/
abbrev Document := List (Plain × Item)

def Scalar.text : Scalar → List Char
  | null => "null".toList
  | num n => n.text
  | str s => s.text

def Item.text : Item → List Char
  | scalar x => x.text
  | array l => '[' :: join (l.map Scalar.text) ++ [']']

/-- A member of an object. -/
def memberText (m : Plain × Item) : List Char := m.1.text ++ ':' :: m.2.text

/-- A document, written without whitespace. -/
def Document.text (d : Document) : List Char := '{' :: join (d.map memberText) ++ ['}']

theorem Scalar.isValue (x : Scalar) : IsValue x.text := by
  cases x with
  | null => exact .literal (by simp [text])
  | num n => exact .number n
  | str s => exact .string s.isString

theorem Item.isValue (x : Item) : IsValue x.text := by
  cases x with
  | scalar x => exact x.isValue
  | array l =>
    have h := IsValue.array [] (by simp [IsWs]) (l.map fun x ↦ .bare x.text) fun p hp ↦ by
      obtain ⟨x, -, rfl⟩ := List.mem_map.mp hp
      exact x.isValue
    simpa [text, Function.comp_def] using h

/-- **What is written is JSON.** -/
theorem Document.isText (d : Document) : IsText d.text := by
  have h := IsValue.object [] (by simp [IsWs])
    (d.map fun m ↦ (.bare m.1.text, .bare m.2.text))
    (fun m hm ↦ by
      obtain ⟨x, -, rfl⟩ := List.mem_map.mp hm
      exact x.1.isString)
    (fun m hm ↦ by
      obtain ⟨x, -, rfl⟩ := List.mem_map.mp hm
      exact x.2.isValue)
  refine ⟨.bare d.text, ?_, by simp⟩
  change IsValue ('{' :: join (d.map fun m ↦ m.1.text ++ ':' :: m.2.text) ++ ['}'])
  simpa [Function.comp_def] using h

end Lib.Json
