import Mathlib.Data.List.TakeDrop
import OpenRide.Lib.Json

/-!
# Reading JSON documents

A reader takes a value off the front of a text and returns what is left.  `Reads p text` says that
`p` reads back what `text` writes, whatever follows of the kind that can follow a value in a
document.  There is one lemma of this form for each kind of value, and `Reads.seq` makes the one
for a list out of that for its items.  They add up to `read_text`: a document is read back as it
was.
-/

set_option autoImplicit false

namespace Lib.Json

/-- Reads a value off the front of a text. -/
abbrev Reader (α : Type) := List Char → Option (α × List Char)

/-- What can follow a value in a document. -/
def Follow (r : List Char) : Prop := ∀ c ∈ r.head?, c = ',' ∨ c = ']' ∨ c = '}'

/-- The reader reads back what is written. -/
def Reads {α : Type} (p : Reader α) (text : α → List Char) : Prop :=
  ∀ a r, Follow r → p (text a ++ r) = some (a, r)

/-! ## Digits -/

/-- The text does not go on with a digit. -/
def NoDigit (r : List Char) : Prop := ∀ c ∈ r.head?, digitOf c = none

variable {r : List Char}

theorem Follow.noDigit (h : Follow r) : NoDigit r := by
  intro c hc
  obtain rfl | rfl | rfl := h c hc <;> rfl

def spanDigits : List Char → List (Fin 10) × List Char
  | [] => ([], [])
  | c :: t =>
    match digitOf c with
    | some d => (d :: (spanDigits t).1, (spanDigits t).2)
    | none => ([], c :: t)

theorem spanDigits_text (l : List (Fin 10)) (hr : NoDigit r) :
    spanDigits (l.map digitChar ++ r) = (l, r) := by
  induction l with
  | nil =>
    cases r with
    | nil => rfl
    | cons c t => simp [spanDigits, hr c (by simp)]
  | cons d l ih => simp [spanDigits, digitOf_digitChar, ih]

def readDigits : Reader Digits := fun t ↦
  if h : (spanDigits t).1 ≠ [] then some (⟨(spanDigits t).1, h⟩, (spanDigits t).2) else none

theorem readDigits_text (d : Digits) (hr : NoDigit r) : readDigits (d.text ++ r) = some (d, r) := by
  have h := spanDigits_text d.digits hr
  simp only [readDigits, Digits.text, h, ne_eq, d.ne_nil, not_false_eq_true, dite_true]

/-! ## Numbers -/

/-- A part that is there if the text begins with one of some characters. -/
def readOption {α : Type} (starts : Char → Bool) (p : Reader α) : Reader (Option α) := fun t ↦
  if t.head?.any starts then (p t).map fun (a, r) ↦ (some a, r) else some (none, t)

/-- The sign of an exponent. -/
def spanSign : List Char → Option Bool × List Char
  | '-' :: t => (some true, t)
  | '+' :: t => (some false, t)
  | t => (none, t)

def readExponent : Reader Exponent
  | [] => none
  | c :: t => (readDigits (spanSign t).2).map fun (d, r) ↦ (⟨c = 'E', (spanSign t).1, d⟩, r)

def readNumber : Reader Number := fun t ↦ do
  let minus : Bool := t.head? = some '-'
  let (int, t) ← readDigits (if minus then t.tail else t)
  let (frac, t) ← readOption (· == '.') (fun t ↦ readDigits t.tail) t
  let (exp, t) ← readOption (fun c ↦ c == 'e' || c == 'E') readExponent t
  if h : int.IsInt then some (⟨minus, int, h, frac, exp⟩, t) else none

theorem Digits.text_eq_cons (d : Digits) : ∃ i t, d.text = digitChar i :: t := by
  obtain ⟨l, hl⟩ := d
  cases l with
  | nil => exact absurd rfl hl
  | cons i l => exact ⟨i, _, rfl⟩

theorem digitChar_ne {c : Char} (hc : digitOf c = none) (i : Fin 10) : digitChar i ≠ c := by
  rintro rfl
  simp [digitOf_digitChar] at hc

theorem spanSign_digits (d : Digits) (r : List Char) :
    spanSign (d.text ++ r) = (none, d.text ++ r) := by
  obtain ⟨i, t, ht⟩ := d.text_eq_cons
  have hminus : digitChar i ≠ '-' := digitChar_ne rfl i
  have hplus : digitChar i ≠ '+' := digitChar_ne rfl i
  unfold spanSign
  split <;> simp_all

theorem readExponent_text (e : Exponent) (hr : NoDigit r) :
    readExponent (e.text ++ r) = some (e, r) := by
  obtain ⟨upper, minus, d⟩ := e
  have hsign : spanSign (signText minus ++ (d.text ++ r)) = (minus, d.text ++ r) := by
    cases minus with
    | none => exact spanSign_digits d r
    | some b => cases b <;> rfl
  simp only [Exponent.text, List.cons_append, List.append_assoc, readExponent, hsign,
    readDigits_text d hr]
  cases upper <;> rfl

theorem readOption_exp (e : Option Exponent) (hr : Follow r) :
    readOption (fun c ↦ c == 'e' || c == 'E') readExponent (e.elim [] Exponent.text ++ r) =
      some (e, r) := by
  cases e with
  | none =>
    cases r with
    | nil => rfl
    | cons c t =>
      obtain rfl | rfl | rfl := hr c (by simp) <;> rfl
  | some e =>
    simp only [Option.elim_some, readOption, readExponent_text e hr.noDigit]
    cases hu : e.upper <;> simp [Exponent.text, hu]

/-- What follows the digits in front of the exponent. -/
theorem exp_follow (e : Option Exponent) (hr : Follow r) :
    NoDigit (e.elim [] Exponent.text ++ r) ∧ (e.elim [] Exponent.text ++ r).head? ≠ some '.' := by
  cases e with
  | none =>
    refine ⟨hr.noDigit, fun h ↦ ?_⟩
    obtain h' | h' | h' := hr '.' h <;> revert h' <;> decide
  | some e =>
    cases hu : e.upper <;> simp [NoDigit, Exponent.text, hu] <;> decide

theorem readOption_frac (d : Option Digits) (hr : NoDigit r) (hdot : r.head? ≠ some '.') :
    readOption (· == '.') (fun t ↦ readDigits t.tail) (d.elim [] (fun d ↦ '.' :: d.text) ++ r) =
      some (d, r) := by
  cases d with
  | none =>
    cases r with
    | nil => rfl
    | cons c t =>
      have hc : c ≠ '.' := fun h ↦ hdot (by simp [h])
      simp [readOption, hc]
  | some d => simp [readOption, readDigits_text d hr]

theorem frac_follow (d : Option Digits) (hr : NoDigit r) :
    NoDigit (d.elim [] (fun d ↦ '.' :: d.text) ++ r) := by
  cases d with
  | none => exact hr
  | some d =>
    rintro c ⟨⟩
    rfl

theorem reads_number : Reads readNumber Number.text := by
  intro n r hr
  obtain ⟨hexp, hdot⟩ := exp_follow n.exp hr
  obtain ⟨i, t, ht⟩ := n.int.text_eq_cons
  have hi : digitChar i ≠ '-' := digitChar_ne rfl i
  have hint := readDigits_text n.int (frac_follow n.frac hexp)
  have hminus : ((n.text ++ r).head? = some '-') ↔ n.minus = true := by
    cases hm : n.minus <;> simp [Number.text, hm, ht, hi]
  have hrest : (if n.minus then (n.text ++ r).tail else n.text ++ r) = n.int.text ++
      (n.frac.elim [] (fun d ↦ '.' :: d.text) ++ (n.exp.elim [] Exponent.text ++ r)) := by
    cases hm : n.minus <;> simp [Number.text, hm]
  simp only [readNumber, hminus, Bool.decide_eq_true, hrest, hint, Option.bind_eq_bind,
    Option.bind_some, readOption_frac n.frac hexp hdot, readOption_exp n.exp hr]
  rw [dif_pos n.isInt]

/-! ## Strings and scalars -/

def readPlain : Reader Plain := fun t ↦
  if t.head? ≠ some '"' then none
  else if h : (t.tail.takeWhile (· ≠ '"')).all (Unescaped ·) = true then
    match t.tail.dropWhile (· ≠ '"') with
    | [] => none
    | _ :: r => some (⟨t.tail.takeWhile (· ≠ '"'), all_unescaped.mp h⟩, r)
  else none

theorem readPlain_text (s : Plain) (r : List Char) : readPlain (s.text ++ r) = some (s, r) := by
  have hs : ∀ c ∈ s.chars, (decide (c ≠ '"')) = true := fun c hc ↦ by
    simpa using (s.unescaped c hc).2.1
  have htake : (s.chars ++ '"' :: r).takeWhile (· ≠ '"') = s.chars := by
    rw [List.takeWhile_append_of_pos hs]
    simp
  have hdrop : (s.chars ++ '"' :: r).dropWhile (· ≠ '"') = '"' :: r := by
    rw [List.dropWhile_append_of_pos hs]
    simp
  have htail : (s.text ++ r).tail = s.chars ++ '"' :: r := by simp [Plain.text]
  have hhead : (s.text ++ r).head? = some '"' := rfl
  simp only [readPlain, hhead, htail, htake, hdrop, ne_eq, not_true_eq_false, if_false]
  rw [dif_pos (all_unescaped.mpr s.unescaped)]

def readScalar : Reader Scalar := fun t ↦
  if t.head? = some '"' then (readPlain t).map fun (s, r) ↦ (.str s, r)
  else if t.head? = some 'n' then
    if t.take 4 = "null".toList then some (.null, t.drop 4) else none
  else (readNumber t).map fun (n, r) ↦ (.num n, r)

theorem Number.head_text (n : Number) (r : List Char) {c : Char} (hc : digitOf c = none)
    (hminus : c ≠ '-') : (n.text ++ r).head? ≠ some c := by
  obtain ⟨i, t, ht⟩ := n.int.text_eq_cons
  have hi : digitChar i ≠ c := digitChar_ne hc i
  cases hm : n.minus <;> simp [Number.text, hm, ht, hi, Ne.symm hminus]

theorem reads_scalar : Reads readScalar Scalar.text := by
  intro x r hr
  cases x with
  | null => rfl
  | str s =>
    have hhead : ((Scalar.str s).text ++ r).head? = some '"' := rfl
    rw [readScalar, if_pos hhead, Scalar.text, readPlain_text, Option.map_some]
  | num n =>
    rw [readScalar, Scalar.text, if_neg (n.head_text r rfl (by decide)),
      if_neg (n.head_text r rfl (by decide)), reads_number n r hr, Option.map_some]

/-- No scalar begins with what ends an array, or begins one. -/
theorem Scalar.head_text (x : Scalar) (r : List Char) {c : Char} (hc : c = '[' ∨ c = ']') :
    (x.text ++ r).head? ≠ some c := by
  cases x with
  | null => obtain rfl | rfl := hc <;> simp [text]
  | str s => obtain rfl | rfl := hc <;> simp [text, Plain.text]
  | num n => obtain rfl | rfl := hc <;> exact n.head_text r rfl (by decide)

/-! ## Lists -/

section Lists

variable {α : Type} (p : Reader α) (close : Char)

/-- The items of a list that is not empty, up to its closing character. -/
def readMore : ℕ → Reader (List α)
  | 0, _ => none
  | fuel + 1, t => do
    let (a, t) ← p t
    if t.head? = some ',' then (readMore fuel t.tail).map fun (l, r) ↦ (a :: l, r)
    else if t.head? = some close then some ([a], t.tail)
    else none

/-- A list, behind its opening character. -/
def readSeq : Reader (List α) := fun t ↦
  if t.head? = some close then some ([], t.tail) else readMore p close t.length t

variable {p close} {text : α → List Char}

theorem join_cons_cons (t u : List Char) (l : List (List Char)) :
    join (t :: u :: l) = t ++ ',' :: join (u :: l) := by
  simp [join]

theorem length_le_flatten (l : List (List Char)) :
    l.length ≤ ((l.map (',' :: ·)).flatten).length := by
  induction l with
  | nil => simp
  | cons t l ih =>
    simp only [List.length_cons, List.map_cons, List.flatten_cons, List.cons_append,
      List.length_append]
    omega

theorem readMore_join (hp : Reads p text) (hclose : close = ']' ∨ close = '}') (a : α)
    (l : List α) (r : List Char) {fuel : ℕ} (hfuel : l.length < fuel) :
    readMore p close fuel (join ((a :: l).map text) ++ close :: r) = some (a :: l, r) := by
  have hfollow : Follow (close :: r) := by
    rintro c ⟨⟩
    exact .inr hclose
  have hcomma : close ≠ ',' := by obtain rfl | rfl := hclose <;> decide
  induction l generalizing a fuel with
  | nil =>
    obtain ⟨fuel, rfl⟩ := Nat.exists_eq_succ_of_ne_zero (by omega : fuel ≠ 0)
    simp [readMore, join, hp a _ hfollow, hcomma]
  | cons b l ih =>
    obtain ⟨fuel, rfl⟩ := Nat.exists_eq_succ_of_ne_zero (by omega : fuel ≠ 0)
    have hb := @ih b fuel (by simpa using hfuel)
    have hjoin : join ((a :: b :: l).map text) ++ close :: r =
        text a ++ ',' :: (join ((b :: l).map text) ++ close :: r) := by
      simp [join_cons_cons]
    rw [hjoin, readMore, hp a _ (by rintro c ⟨⟩; exact .inl rfl)]
    simpa using hb

/-- **Lists are read back**, if their items are, and none of these begins with the closing
character. -/
theorem Reads.seq (hp : Reads p text) (hclose : close = ']' ∨ close = '}')
    (hhead : ∀ a r, (text a ++ r).head? ≠ some close) (l : List α) (r : List Char) :
    readSeq p close (join (l.map text) ++ close :: r) = some (l, r) := by
  cases l with
  | nil => simp [readSeq, join]
  | cons a l =>
    have hne : (join ((a :: l).map text) ++ close :: r).head? ≠ some close := by
      simpa [join] using hhead a (((l.map text).map (',' :: ·)).flatten ++ close :: r)
    have hlength : l.length < (join ((a :: l).map text) ++ close :: r).length := by
      have := length_le_flatten (l.map text)
      simp only [List.length_map] at this
      simp only [List.map_cons, join, List.length_append, List.length_cons]
      omega
    rw [readSeq, if_neg hne, readMore_join hp hclose a l r hlength]

end Lists

/-! ## Documents -/

def readItem : Reader Item := fun t ↦
  if t.head? = some '[' then (readSeq readScalar ']' t.tail).map fun (l, r) ↦ (.array l, r)
  else (readScalar t).map fun (x, r) ↦ (.scalar x, r)

theorem reads_item : Reads readItem Item.text := by
  intro x r hr
  cases x with
  | scalar x =>
    rw [readItem, Item.text, if_neg (x.head_text r (.inl rfl)), reads_scalar x r hr,
      Option.map_some]
  | array l =>
    have hhead : ((Item.array l).text ++ r).head? = some '[' := rfl
    have htail : ((Item.array l).text ++ r).tail = join (l.map Scalar.text) ++ ']' :: r := by
      simp [Item.text]
    rw [readItem, if_pos hhead, htail,
      reads_scalar.seq (.inl rfl) (fun x r ↦ x.head_text r (.inr rfl)), Option.map_some]

def readMember : Reader (Plain × Item) := fun t ↦ do
  let (key, t) ← readPlain t
  if t.head? = some ':' then (readItem t.tail).map fun (x, r) ↦ ((key, x), r) else none

theorem reads_member : Reads readMember memberText := by
  intro m r hr
  simp [readMember, memberText, readPlain_text, reads_item m.2 r hr]

def readDocument (t : List Char) : Option Document :=
  if t.head? = some '{' then
    match readSeq readMember '}' t.tail with
    | some (d, []) => some d
    | _ => none
  else none

/-- **A document is read back as it was written.** -/
theorem read_text (d : Document) : readDocument d.text = some d := by
  have hhead : d.text.head? = some '{' := rfl
  have htail : d.text.tail = join (d.map memberText) ++ '}' :: [] := rfl
  have hseq := reads_member.seq (.inr rfl) (fun m r ↦ by simp [memberText, Plain.text]) d []
  rw [readDocument, if_pos hhead, htail, hseq]

end Lib.Json
