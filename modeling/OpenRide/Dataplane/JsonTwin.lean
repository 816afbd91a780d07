import OpenRide.Dataplane.FrameCodec
import OpenRide.Lib.JsonReader

/-!
# The JSON twin of a frame

`encode_json` puts a frame into a dictionary and has `orjson` write it; `decode_json` has `orjson`
read it and checks magic, version and kind, in that order, before it makes the arrays.  `orjson` and
`numpy` are parameters here, with what their documentation says of the values a frame has:
`Orjson.Documented` and `Numpy.Documented`.

What `orjson` writes for a double that is not finite is `null`.  `encode_json` looks at the
longitudes and latitudes for that reason, and not at the time: `twin_roundTrips_iff` says for which
frames the twin is read back as an equal frame.
-/

namespace OpenRide.Dataplane.Wire

open Lib Json

/-! ## Values -/

/-- A string literal of the source, none of whose characters needs an escape. -/
def plain (s : String) (h : s.toList.all (Unescaped ·) = true := by decide) : Plain :=
  ⟨s.toList, all_unescaped.mp h⟩

/-- What a frame gives `orjson.dumps` to write. -/
inductive Value where
  | str (s : Plain)
  | int (i : ℤ)
  | float (x : F64)
  /-- An array of doubles. -/
  | floats (xs : List F64)
  /-- An array of unsigned integers. -/
  | unsigned (ns : List ℕ)

/-- What `orjson.loads` returns. -/
inductive Loaded where
  | none
  | bool (b : Bool)
  | int (i : ℤ)
  | float (x : F64)
  | str (s : List Char)
  | list (l : List Loaded)
  | dict (d : List (List Char × Loaded))

/-- The numerator of the absolute value of a finite double, over `denominator`. -/
def numerator (x : F64) : ℕ :=
  (if x.exponent = 0 then x.mantissa else 2 ^ 52 + x.mantissa) * 2 ^ (max x.exponent 1 - 1075)

def denominator (x : F64) : ℕ := 2 ^ (1075 - max x.exponent 1)

def sign (x : F64) : ℤ := if x.bits.toNat / 2 ^ 63 = 1 then -1 else 1

/-- `x == i` for a double and an integer. -/
def floatEqInt (x : F64) (i : ℤ) : Bool :=
  x.isFinite && sign x * numerator x == i * denominator x

namespace Loaded

/-- `v == i`. -/
def eqInt (i : ℤ) : Loaded → Bool
  | bool b => (if b then 1 else 0) == i
  | int j => j == i
  | float x => floatEqInt x i
  | _ => false

/-- `v == x`. -/
def eqFloat (x : F64) : Loaded → Bool
  | bool b => floatEqInt x (if b then 1 else 0)
  | int i => floatEqInt x i
  | float y => x.eq y
  | _ => false

/-- `v == s`. -/
def eqStr (s : Plain) : Loaded → Bool
  | str t => t == s.chars
  | _ => false

/-- `int(v)`, `none` when it raises. -/
def toInt : Loaded → Option ℤ
  | bool b => some (if b then 1 else 0)
  | int i => some i
  | float x => if x.isFinite then some (sign x * (numerator x / denominator x : ℕ)) else Option.none
  | str s => (String.ofList s).trimAscii.toInt?
  | _ => Option.none

end Loaded

/-! ## The libraries -/

/-- An integer of 64 bits, signed or not. -/
def Fits (i : ℤ) : Prop := -2 ^ 63 ≤ i ∧ i < 2 ^ 64

instance (i : ℤ) : Decidable (Fits i) := inferInstanceAs (Decidable (_ ∧ _))

/-- `orjson`. -/
structure Orjson where
  /-- `dumps`, of a dictionary; `none` is a `JSONEncodeError`. -/
  dumps : List (Plain × Value) → Option (List Char)
  /-- `loads`; `none` is a `JSONDecodeError`. -/
  loads : List Char → Option Loaded
  /-- How a finite double is written. -/
  floatText : F64 → Number
  /-- What a number is read as. -/
  readNumber : Number → Loaded

namespace Orjson

variable (o : Orjson)

/-- A double: those that are not finite are `null`. -/
def floatScalar (x : F64) : Scalar := if x.isFinite then .num (o.floatText x) else .null

/-- How a value is written, unless it is an integer of more than 64 bits. -/
def item : Value → Option Item
  | .str s => some (.scalar (.str s))
  | .int i => if Fits i then some (.scalar (.num (.decimal i))) else none
  | .float x => some (.scalar (o.floatScalar x))
  | .floats xs => some (.array (xs.map o.floatScalar))
  | .unsigned ns => some (.array (ns.map fun (n : ℕ) ↦ .num (.decimal n)))

/-- How a scalar is read. -/
def readScalar : Scalar → Loaded
  | .null => .none
  | .num n => o.readNumber n
  | .str s => .str s.chars

/-- How a value of an object is read. -/
def readItem : Item → Loaded
  | .scalar x => o.readScalar x
  | .array l => .list (l.map o.readScalar)

/-- What the documentation says: members are written in their order and without whitespace, doubles
without loss; a text is read as what it says. -/
structure Documented : Prop where
  dumps_eq (payload : List (Plain × Value)) :
    o.dumps payload = (payload.mapM fun m ↦ (o.item m.2).map (m.1, ·)).map Document.text
  loads_text (d : Document) (h : (d.map fun m ↦ m.1).Nodup) :
    o.loads d.text = some (.dict (d.map fun m ↦ (m.1.chars, o.readItem m.2)))
  readNumber_decimal (i : ℤ) (h : Fits i) : o.readNumber (.decimal i) = .int i
  readNumber_floatText (x : F64) (h : x.isFinite = true) : o.readNumber (o.floatText x) = .float x

end Orjson

/-- `np.array` of the element type of each column; `none` when it raises. -/
structure Numpy where
  float64 : Loaded → Option (List F64)
  uint32 : Loaded → Option (List UInt32)
  uint8 : Loaded → Option (List UInt8)

/-- What the documentation says of lists of numbers that fit. -/
structure Numpy.Documented (np : Numpy) : Prop where
  float64_list (xs : List F64) : np.float64 (.list (xs.map .float)) = some xs
  uint32_list (ns : List UInt32) : np.uint32 (.list (ns.map fun n ↦ .int n.toNat)) = some ns
  uint8_list (ns : List UInt8) : np.uint8 (.list (ns.map fun n ↦ .int n.toNat)) = some ns

/-! ## Encoding and decoding -/

/-- What the JSON twin raises. -/
inductive TwinError where
  /-- `FrameError`: lng/lat must be finite. -/
  | notFinite
  /-- `JSONEncodeError`. -/
  | dumps
  /-- `JSONDecodeError`. -/
  | loads
  /-- `AttributeError`: what was read is no dictionary. -/
  | attribute
  /-- `FrameDecodeError`: bad magic. -/
  | badMagic (magic : Loaded)
  /-- `FrameVersionMismatch`. -/
  | versionMismatch (expected : ℤ) (got : Loaded)
  /-- `FrameDecodeError`: bad kind. -/
  | badKind (kind : Loaded)
  /-- `KeyError`. -/
  | key (key : List Char)
  /-- What `np.array` raises. -/
  | array
  /-- What `Frame` raises. -/
  | frame (e : CodecError)

/-- `FRAME_MAGIC.decode("ascii")`. -/
def magicText : Plain := plain "ORDP"

/-- The dictionary of a frame. -/
def Frame.payload (f : Frame) : List (Plain × Value) :=
  [(plain "magic", .str magicText), (plain "version", .int f.version),
    (plain "kind", .int f.kind), (plain "frame_idx", .int f.frameIdx), (plain "n", .int f.n),
    (plain "sim_time_ms", .float f.simTimeMs), (plain "lng", .floats f.columns.lng),
    (plain "lat", .floats f.columns.lat),
    (plain "slot", .unsigned (f.columns.slot.map UInt32.toNat)),
    (plain "state", .unsigned (f.columns.state.map UInt8.toNat)),
    (plain "haulier", .unsigned (f.columns.haulier.map UInt8.toNat))]

/-- `encode_json`.  A text stands for its bytes. -/
def encodeJson (o : Orjson) (f : Frame) : Except TwinError (List Char) :=
  if !f.columns.lng.all F64.isFinite || !f.columns.lat.all F64.isFinite then .error .notFinite
  else
    match o.dumps f.payload with
    | none => .error .dumps
    | some text => .ok text

/-- A frame as `decode_json` makes it: the fields of the header are what was read. -/
structure TwinFrame where
  frameIdx : Loaded
  simTimeMs : Loaded
  columns : Columns
  kind : Loaded
  version : Loaded

/-- `obj[key]`. -/
def getItem (obj : List (List Char × Loaded)) (key : Plain) : Except TwinError Loaded :=
  match obj.lookup key.chars with
  | none => .error (.key key.chars)
  | some v => .ok v

/-- `np.array(obj[key], dtype=...)`. -/
def getArray {α : Type} (array : Loaded → Option (List α)) (obj : List (List Char × Loaded))
    (key : Plain) : Except TwinError (List α) := do
  let v ← getItem obj key
  match array v with
  | none => .error .array
  | some xs => .ok xs

/-- `decode_json`, once the text is read. -/
def decodeDict (np : Numpy) (obj : List (List Char × Loaded)) : Except TwinError TwinFrame :=
  let magic := (obj.lookup (plain "magic").chars).getD .none
  let version := (obj.lookup (plain "version").chars).getD .none
  let kind := (obj.lookup (plain "kind").chars).getD .none
  if !magic.eqStr magicText then .error (.badMagic magic)
  else if !version.eqInt frameVersion then .error (.versionMismatch frameVersion version)
  else if !(kind.eqInt 0 || kind.eqInt 1) then .error (.badKind kind)
  else do
    let frameIdx ← getItem obj (plain "frame_idx")
    let simTimeMs ← getItem obj (plain "sim_time_ms")
    let lng ← getArray np.float64 obj (plain "lng")
    let lat ← getArray np.float64 obj (plain "lat")
    let slot ← getArray np.uint32 obj (plain "slot")
    let state ← getArray np.uint8 obj (plain "state")
    let haulier ← getArray np.uint8 obj (plain "haulier")
    let columns ← (Columns.make lng lat slot state haulier).mapError .frame
    return { frameIdx := frameIdx, simTimeMs := simTimeMs, columns := columns, kind := kind,
             version := version }

/-- `decode_json`. -/
def decodeJson (o : Orjson) (np : Numpy) (buf : List Char) : Except TwinError TwinFrame :=
  match o.loads buf with
  | none => .error .loads
  | some (.dict obj) => decodeDict np obj
  | some _ => .error .attribute

/-- `Frame.__eq__` with a frame that was read, `none` when it raises. -/
def Frame.eqTwin (f : Frame) (g : TwinFrame) : Option Bool := do
  let version ← g.version.toInt
  if f.version ≠ version then return false
  let kind ← g.kind.toInt
  if f.kind ≠ kind then return false
  let frameIdx ← g.frameIdx.toInt
  return f.frameIdx == frameIdx && g.simTimeMs.eqFloat f.simTimeMs &&
    arrayEqual f.columns.lng g.columns.lng && arrayEqual f.columns.lat g.columns.lat &&
    f.columns.slot == g.columns.slot && f.columns.state == g.columns.state &&
    f.columns.haulier == g.columns.haulier

/-! ## What is written -/

section Twin

variable {o : Orjson} {np : Numpy} {f : Frame} {out : List Char}

/-- The document a frame is written as. -/
def Frame.document (o : Orjson) (f : Frame) : Document :=
  [(plain "magic", .scalar (.str magicText)),
    (plain "version", .scalar (.num (.decimal f.version))),
    (plain "kind", .scalar (.num (.decimal f.kind))),
    (plain "frame_idx", .scalar (.num (.decimal f.frameIdx))),
    (plain "n", .scalar (.num (.decimal f.n))),
    (plain "sim_time_ms", .scalar (o.floatScalar f.simTimeMs)),
    (plain "lng", .array (f.columns.lng.map o.floatScalar)),
    (plain "lat", .array (f.columns.lat.map o.floatScalar)),
    (plain "slot", .array (f.columns.slot.map fun n ↦ .num (.decimal n.toNat))),
    (plain "state", .array (f.columns.state.map fun n ↦ .num (.decimal n.toNat))),
    (plain "haulier", .array (f.columns.haulier.map fun n ↦ .num (.decimal n.toNat)))]

/-- What `encode_json` asks of a frame. -/
structure Frame.Writable (f : Frame) : Prop where
  lng : ∀ x ∈ f.columns.lng, x.isFinite = true
  lat : ∀ x ∈ f.columns.lat, x.isFinite = true
  version : Fits f.version
  kind : Fits f.kind
  frameIdx : Fits f.frameIdx

theorem item_int (i : ℤ) (h : Fits i) :
    o.item (.int i) = some (.scalar (.num (.decimal i))) := if_pos h

theorem item_int_none (i : ℤ) (h : ¬ Fits i) : o.item (.int i) = none := if_neg h

theorem mapM_payload {d : Document}
    (h : (f.payload.mapM fun m ↦ (o.item m.2).map (m.1, ·)) = some d) :
    (Fits f.version ∧ Fits f.kind ∧ Fits f.frameIdx) ∧ d = f.document o := by
  by_cases hv : Fits f.version
  · by_cases hk : Fits f.kind
    · by_cases hi : Fits f.frameIdx
      · by_cases hn : Fits f.n
        · refine ⟨⟨hv, hk, hi⟩, ?_⟩
          simpa [Frame.payload, item_int, hv, hk, hi, hn, Orjson.item, Frame.document,
            Function.comp_def] using h.symm
        · simp [Frame.payload, item_int, item_int_none, hv, hk, hi, hn] at h
      · simp [Frame.payload, item_int, item_int_none, hv, hk, hi] at h
    · simp [Frame.payload, item_int, item_int_none, hv, hk] at h
  · simp [Frame.payload, item_int_none, hv] at h

theorem encodeJson_ok (ho : o.Documented) (h : encodeJson o f = .ok out) :
    f.Writable ∧ out = (f.document o).text := by
  unfold encodeJson at h
  split at h
  · cases h
  · next hfinite =>
    rw [ho.dumps_eq] at h
    split at h
    · cases h
    · next text htext =>
      obtain ⟨d, hd, rfl⟩ := Option.map_eq_some_iff.mp htext
      obtain ⟨⟨hv, hk, hi⟩, rfl⟩ := mapM_payload hd
      simp only [Bool.or_eq_true, Bool.not_eq_true', not_or, Bool.not_eq_false,
        List.all_eq_true] at hfinite
      exact ⟨⟨hfinite.1, hfinite.2, hv, hk, hi⟩, (Except.ok.inj h).symm⟩

/-! ## What is read -/

/-- The dictionary that is read back. -/
def Frame.loaded (o : Orjson) (f : Frame) : List (List Char × Loaded) :=
  [((plain "magic").chars, .str magicText.chars), ((plain "version").chars, .int f.version),
    ((plain "kind").chars, .int f.kind), ((plain "frame_idx").chars, .int f.frameIdx),
    ((plain "n").chars, o.readNumber (.decimal f.n)),
    ((plain "sim_time_ms").chars, o.readScalar (o.floatScalar f.simTimeMs)),
    ((plain "lng").chars, .list (f.columns.lng.map .float)),
    ((plain "lat").chars, .list (f.columns.lat.map .float)),
    ((plain "slot").chars, .list (f.columns.slot.map fun n ↦ .int n.toNat)),
    ((plain "state").chars, .list (f.columns.state.map fun n ↦ .int n.toNat)),
    ((plain "haulier").chars, .list (f.columns.haulier.map fun n ↦ .int n.toNat))]

theorem readScalar_float (ho : o.Documented) {x : F64} (h : x.isFinite = true) :
    o.readScalar (o.floatScalar x) = .float x := by
  rw [Orjson.floatScalar, if_pos h]
  exact ho.readNumber_floatText x h

theorem readItem_floats (ho : o.Documented) {xs : List F64} (h : ∀ x ∈ xs, x.isFinite = true) :
    o.readItem (.array (xs.map o.floatScalar)) = .list (xs.map .float) := by
  rw [Orjson.readItem, List.map_map]
  exact congrArg _ (List.map_congr_left fun x hx ↦ readScalar_float ho (h x hx))

theorem readItem_unsigned (ho : o.Documented) {α : Type} (toNat : α → ℕ)
    (h : ∀ a, toNat a < 2 ^ 64) (ns : List α) :
    o.readItem (.array (ns.map fun n ↦ .num (.decimal (toNat n)))) =
      .list (ns.map fun n ↦ .int (toNat n)) := by
  rw [Orjson.readItem, List.map_map]
  refine congrArg _ (List.map_congr_left fun n _ ↦ ho.readNumber_decimal _ ⟨by omega, ?_⟩)
  exact_mod_cast h n

theorem loads_document (ho : o.Documented) (hf : f.Writable) :
    o.loads (f.document o).text = some (.dict (f.loaded o)) := by
  have hkeys : ((f.document o).map fun m ↦ m.1).Nodup := by
    change [plain "magic", plain "version", plain "kind", plain "frame_idx", plain "n",
      plain "sim_time_ms", plain "lng", plain "lat", plain "slot", plain "state",
      plain "haulier"].Nodup
    decide
  rw [ho.loads_text _ hkeys]
  have hslot := readItem_unsigned ho UInt32.toNat (fun a ↦ by have := a.toNat_lt; omega)
    f.columns.slot
  have hbyte := readItem_unsigned ho UInt8.toNat (fun a ↦ by have := a.toNat_lt; omega)
  simp only [Frame.document, Frame.loaded, List.map_cons, List.map_nil, readItem_floats ho hf.lng,
    readItem_floats ho hf.lat, hslot, hbyte]
  simp only [Orjson.readItem, Orjson.readScalar, ho.readNumber_decimal _ hf.version,
    ho.readNumber_decimal _ hf.kind, ho.readNumber_decimal _ hf.frameIdx]

/-- The frame that is made of what is read. -/
def Frame.twin (o : Orjson) (f : Frame) : TwinFrame where
  frameIdx := .int f.frameIdx
  simTimeMs := o.readScalar (o.floatScalar f.simTimeMs)
  columns := f.columns
  kind := .int f.kind
  version := .int f.version

theorem getArray_loaded {α : Type} {array : Loaded → Option (List α)}
    {obj : List (List Char × Loaded)} {key : Plain} {v : Loaded} {xs : List α}
    (h : obj.lookup key.chars = some v) (hv : array v = some xs) :
    getArray array obj key = .ok xs := by
  simp only [getArray, getItem, h, bind, Except.bind, hv]

theorem decodeDict_loaded (hnp : np.Documented) :
    decodeDict np (f.loaded o) =
      if f.version ≠ 1 then .error (.versionMismatch 1 (.int f.version))
      else if f.kind ≠ 0 ∧ f.kind ≠ 1 then .error (.badKind (.int f.kind))
      else .ok (f.twin o) := by
  have hmagic : (f.loaded o).lookup (plain "magic").chars = some (.str magicText.chars) := rfl
  have hversion : (f.loaded o).lookup (plain "version").chars = some (.int f.version) := rfl
  have hkind : (f.loaded o).lookup (plain "kind").chars = some (.int f.kind) := rfl
  have hindex : getItem (f.loaded o) (plain "frame_idx") = .ok (.int f.frameIdx) := rfl
  have htime : getItem (f.loaded o) (plain "sim_time_ms") =
      .ok (o.readScalar (o.floatScalar f.simTimeMs)) := rfl
  have hlng : getArray np.float64 (f.loaded o) (plain "lng") = .ok f.columns.lng :=
    getArray_loaded rfl (hnp.float64_list _)
  have hlat : getArray np.float64 (f.loaded o) (plain "lat") = .ok f.columns.lat :=
    getArray_loaded rfl (hnp.float64_list _)
  have hslot : getArray np.uint32 (f.loaded o) (plain "slot") = .ok f.columns.slot :=
    getArray_loaded rfl (hnp.uint32_list _)
  have hstate : getArray np.uint8 (f.loaded o) (plain "state") = .ok f.columns.state :=
    getArray_loaded rfl (hnp.uint8_list _)
  have hhaulier : getArray np.uint8 (f.loaded o) (plain "haulier") = .ok f.columns.haulier :=
    getArray_loaded rfl (hnp.uint8_list _)
  have hmake : Columns.make f.columns.lng f.columns.lat f.columns.slot f.columns.state
      f.columns.haulier = .ok f.columns :=
    dif_pos ⟨f.columns.length_lat, f.columns.length_slot, f.columns.length_state,
      f.columns.length_haulier⟩
  simp only [decodeDict, hmagic, hversion, hkind, hindex, htime, hlng, hlat, hslot, hstate,
    hhaulier, hmake, Option.getD_some, Loaded.eqStr, Loaded.eqInt, bind, Except.bind, pure,
    Except.pure, Except.mapError, frameVersion, beq_self_eq_true, Bool.not_true, Bool.false_eq_true,
    if_false]
  by_cases hv : f.version = 1
  · by_cases h0 : f.kind = 0
    · simp [hv, h0, Frame.twin]
    · by_cases h1 : f.kind = 1 <;> simp [hv, h0, h1, Frame.twin]
  · simp [hv]

/-- A frame equals what is read back of it just when its time is finite. -/
theorem eqTwin_twin (ho : o.Documented) (hf : f.Writable) :
    f.eqTwin (f.twin o) = some f.simTimeMs.isFinite := by
  have htime : (o.readScalar (o.floatScalar f.simTimeMs)).eqFloat f.simTimeMs =
      f.simTimeMs.isFinite := by
    by_cases h : f.simTimeMs.isFinite = true
    · rw [readScalar_float ho h, h]
      exact F64.eq_self h
    · rw [Orjson.floatScalar, if_neg h, Bool.not_eq_true _ |>.mp h]
      rfl
  simp [Frame.eqTwin, Frame.twin, Loaded.toInt, htime, arrayEqual_self hf.lng,
    arrayEqual_self hf.lat]

theorem decodeJson_encodeJson (ho : o.Documented) (hnp : np.Documented)
    (h : encodeJson o f = .ok out) :
    (∃ g, decodeJson o np out = .ok g ∧ f.eqTwin g = some true) ↔
      f.simTimeMs.isFinite = true ∧ f.version = 1 ∧ (f.kind = 0 ∨ f.kind = 1) := by
  obtain ⟨hf, rfl⟩ := encodeJson_ok ho h
  rw [decodeJson, loads_document ho hf]
  simp only [decodeDict_loaded hnp]
  by_cases hv : f.version = 1
  · by_cases hk : f.kind = 0 ∨ f.kind = 1
    · have hk' : ¬ (f.kind ≠ 0 ∧ f.kind ≠ 1) := by tauto
      simp [hv, hk, hk', eqTwin_twin ho hf]
    · have hk' : f.kind ≠ 0 ∧ f.kind ≠ 1 := not_or.mp hk
      simp [hv, hk']
  · simp [hv]

end Twin

/-- **When the JSON twin round-trips.**  What `encode_json` returns is JSON for every frame, and is
read back as an equal frame just when the time is finite and version and kind are known. -/
theorem twin_roundTrips_iff (o : Orjson) (np : Numpy) (ho : o.Documented) (hnp : np.Documented)
    (f : Frame) (out : List Char) (h : encodeJson o f = .ok out) :
    IsText out ∧
      ((∃ g, decodeJson o np out = .ok g ∧ f.eqTwin g = some true) ↔
        f.simTimeMs.isFinite = true ∧ f.version = 1 ∧ (f.kind = 0 ∨ f.kind = 1)) :=
  ⟨(encodeJson_ok ho h).2 ▸ Document.isText _, decodeJson_encodeJson ho hnp h⟩

/-! ## Two frames -/

/-- A number with a zero behind the point. -/
def pointZero (int : ℕ) (exp : Option Exponent) : Number where
  minus := false
  int := .ofNat int
  isInt := Digits.natDigits_head
  frac := some (.ofNat 0)
  exp := exp

/-- The doubles of `oneRow`. -/
def smallDouble : ℕ → F64
  | 0 => ⟨0⟩
  | 1 => ⟨0x3ff0000000000000⟩
  | _ => ⟨0x4000000000000000⟩

/-- The doubles of `oneRow` are written as `0.0`, `1.0` and `2.0`; the others, which it has not, are
told apart by an exponent. -/
def textbookFloat (x : F64) : Number :=
  if x = smallDouble 0 then pointZero 0 none
  else if x = smallDouble 1 then pointZero 1 none
  else if x = smallDouble 2 then pointZero 2 none
  else pointZero 0 (some ⟨false, none, .ofNat x.bits.toNat⟩)

def textbookRead (n : Number) : Loaded :=
  match n.frac, n.exp with
  | none, none => .int (if n.minus then -n.int.value else n.int.value)
  | _, some e => .float ⟨UInt64.ofNat e.digits.value⟩
  | some _, none => .float (smallDouble n.int.value)

theorem textbookRead_pointZero (k : ℕ) :
    textbookRead (pointZero k none) = .float (smallDouble k) := by
  change Loaded.float (smallDouble (Digits.ofNat k).value) = _
  rw [Digits.value_ofNat]

theorem textbookRead_textbookFloat (x : F64) : textbookRead (textbookFloat x) = .float x := by
  unfold textbookFloat
  split
  · next h => rw [h, textbookRead_pointZero]
  · split
    · next h => rw [h, textbookRead_pointZero]
    · split
      · next h => rw [h, textbookRead_pointZero]
      · change Loaded.float ⟨UInt64.ofNat (Digits.ofNat x.bits.toNat).value⟩ = _
        rw [Digits.value_ofNat, UInt64.ofNat_toNat]

theorem textbookRead_decimal (i : ℤ) : textbookRead (.decimal i) = .int i := by
  have hvalue : (Number.decimal i).int.value = i.natAbs := Digits.value_ofNat _
  by_cases hi : i < 0
  · change Loaded.int (if decide (i < 0) = true then _ else _) = _
    rw [hvalue, if_pos (by simpa using hi)]
    congr 1
    omega
  · change Loaded.int (if decide (i < 0) = true then _ else _) = _
    rw [hvalue, if_neg (by simpa using hi)]
    congr 1
    omega

/-- How `textbookOrjson` writes and reads numbers. -/
def textbookNumbers : Orjson where
  dumps _ := none
  loads _ := none
  floatText := textbookFloat
  readNumber := textbookRead

/-- An `orjson` that does as the documentation says. -/
def textbookOrjson : Orjson :=
  { textbookNumbers with
    dumps := fun payload ↦
      (payload.mapM fun m ↦ (textbookNumbers.item m.2).map (m.1, ·)).map Document.text
    loads := fun text ↦
      (readDocument text).map fun d ↦
        .dict (d.map fun m ↦ (m.1.chars, textbookNumbers.readItem m.2)) }

theorem textbookOrjson_documented : textbookOrjson.Documented where
  dumps_eq payload := rfl
  loads_text d _ := by
    change (readDocument d.text).map _ = _
    rw [read_text]
    rfl
  readNumber_decimal i _ := textbookRead_decimal i
  readNumber_floatText x _ := textbookRead_textbookFloat x

/-- The double a number is. -/
def Loaded.toFloat : Loaded → Option F64
  | float x => some x
  | _ => Option.none

/-- The unsigned integer below a bound a number is. -/
def Loaded.toUnsigned (bound : ℕ) : Loaded → Option ℕ
  | int i => if 0 ≤ i ∧ i < bound then some i.toNat else Option.none
  | _ => Option.none

/-- The items of a list, converted. -/
def Loaded.toArray {α : Type} (convert : Loaded → Option α) : Loaded → Option (List α)
  | list l => l.mapM convert
  | _ => Option.none

theorem Loaded.toArray_map {α : Type} {convert : Loaded → Option α} {load : α → Loaded}
    (h : ∀ a, convert (load a) = some a) (l : List α) :
    toArray convert (.list (l.map load)) = some l := by
  rw [toArray]
  induction l with
  | nil => rfl
  | cons a l ih => simp [h, ih]

theorem Loaded.toUnsigned_natCast {bound n : ℕ} (h : n < bound) :
    toUnsigned bound (.int n) = some n := by
  rw [toUnsigned, if_pos ⟨by omega, by exact_mod_cast h⟩, Int.toNat_natCast]

/-- A `numpy` that converts lists of numbers that fit. -/
def textbookNumpy : Numpy where
  float64 := Loaded.toArray Loaded.toFloat
  uint32 := Loaded.toArray fun v ↦ (v.toUnsigned (2 ^ 32)).map UInt32.ofNat
  uint8 := Loaded.toArray fun v ↦ (v.toUnsigned (2 ^ 8)).map UInt8.ofNat

theorem textbookNumpy_documented : textbookNumpy.Documented where
  float64_list := Loaded.toArray_map fun _ ↦ rfl
  uint32_list := Loaded.toArray_map fun n ↦ by
    rw [Loaded.toUnsigned_natCast n.toNat_lt, Option.map_some, UInt32.ofNat_toNat]
  uint8_list := Loaded.toArray_map fun n ↦ by
    rw [Loaded.toUnsigned_natCast n.toNat_lt, Option.map_some, UInt8.ofNat_toNat]

theorem twin_roundTrips_oneRow :
    ∃ out, encodeJson textbookOrjson oneRow = .ok out ∧ IsText out ∧
      ∃ g, decodeJson textbookOrjson textbookNumpy out = .ok g ∧ oneRow.eqTwin g = some true := by
  refine ⟨_, rfl, ?_⟩
  obtain ⟨htext, htrip⟩ := twin_roundTrips_iff textbookOrjson textbookNumpy
    textbookOrjson_documented textbookNumpy_documented oneRow _ rfl
  exact ⟨htext, htrip.mpr ⟨by decide, rfl, .inl rfl⟩⟩

/-- A frame without rows, at the end of time. -/
def endless : Frame := { emptyFrame with simTimeMs := ⟨0x7ff0000000000000⟩ }

/-- Its twin is written, with `null` for the time, and what is read is another frame. -/
theorem endless_twin_lost :
    ∃ out g, encodeJson textbookOrjson endless = .ok out ∧
      decodeJson textbookOrjson textbookNumpy out = .ok g ∧ endless.eqTwin g = some false := by
  have hwritten : encodeJson textbookOrjson endless =
      .ok (endless.document textbookOrjson).text := rfl
  obtain ⟨hf, -⟩ := encodeJson_ok textbookOrjson_documented hwritten
  refine ⟨_, endless.twin textbookOrjson, hwritten, ?_, eqTwin_twin textbookOrjson_documented hf⟩
  rw [decodeJson, loads_document textbookOrjson_documented hf]
  exact decodeDict_loaded textbookNumpy_documented

end OpenRide.Dataplane.Wire
