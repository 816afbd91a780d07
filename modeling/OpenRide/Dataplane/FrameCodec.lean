import OpenRide.Lib.Fallible
import OpenRide.Lib.Packing

/-!
# The binary frame codec

A frame on the wire is a header of 24 bytes and five columns: the longitudes and latitudes as
doubles, the slots as words of 32 bits, states and hauliers as bytes, 22 bytes a row.  `encode`
writes it, and raises when a header field does not fit; `decode` takes it apart and checks magic,
version, kind and length.  The one byte of the header it does not look at is the reserved one.

`decode_eq_ok_iff` says exactly which strings are accepted and as which frame: those that `encode`
writes, whatever their reserved byte is.
-/

namespace OpenRide.Dataplane.Wire

open Lib

abbrev Bytes := List UInt8

/-! ## Frames -/

/-- The arrays of a frame, all of one length. -/
@[ext] structure Columns where
  lng : List F64
  lat : List F64
  slot : List UInt32
  state : List UInt8
  haulier : List UInt8
  length_lat : lat.length = lng.length
  length_slot : slot.length = lng.length
  length_state : state.length = lng.length
  length_haulier : haulier.length = lng.length
deriving DecidableEq

/-- `Frame`. -/
structure Frame where
  frameIdx : ℤ
  simTimeMs : F64
  columns : Columns
  kind : ℤ := 0
  version : ℤ := 1
deriving DecidableEq

/-- The number of rows. -/
def Frame.n (f : Frame) : ℕ := f.columns.lng.length

/-- `np.array_equal` on doubles. -/
def arrayEqual (a b : List F64) : Bool :=
  a.length == b.length && (a.zip b).all fun (x, y) ↦ x.eq y

/-- `Frame.__eq__`. -/
def Frame.eq (f g : Frame) : Bool :=
  f.version == g.version && f.kind == g.kind && f.frameIdx == g.frameIdx &&
    f.simTimeMs.eq g.simTimeMs && arrayEqual f.columns.lng g.columns.lng &&
    arrayEqual f.columns.lat g.columns.lat && f.columns.slot == g.columns.slot &&
    f.columns.state == g.columns.state && f.columns.haulier == g.columns.haulier

/-- All doubles of a frame are finite. -/
def Frame.Finite (f : Frame) : Prop :=
  f.simTimeMs.isFinite = true ∧ (∀ x ∈ f.columns.lng, x.isFinite = true) ∧
    ∀ x ∈ f.columns.lat, x.isFinite = true

theorem arrayEqual_self {a : List F64} (h : ∀ x ∈ a, x.isFinite = true) :
    arrayEqual a a = true := by
  have hzip : a.zip a = a.map fun x ↦ (x, x) := by
    rw [List.zip_eq_zipWith, List.zipWith_self]
  rw [arrayEqual, hzip, List.all_map, beq_self_eq_true, Bool.true_and, List.all_eq_true]
  exact fun x hx ↦ F64.eq_self (h x hx)

variable {f : Frame}

theorem Frame.eq_self (h : f.Finite) : f.eq f = true := by
  simp [Frame.eq, F64.eq_self h.1, arrayEqual_self h.2.1, arrayEqual_self h.2.2]

/-! ## Errors -/

/-- `FrameError`, with what each of its texts says. -/
inductive FrameError where
  /-- `FrameVersionMismatch`. -/
  | versionMismatch (expected got : ℤ)
  /-- `FrameDecodeError`: buffer too short for header. -/
  | tooShort (length : ℕ)
  /-- `FrameDecodeError`: bad magic. -/
  | badMagic (magic : Bytes)
  /-- `FrameDecodeError`: bad kind. -/
  | badKind (kind : ℤ)
  /-- `FrameDecodeError`: buffer length mismatch. -/
  | lengthMismatch (expected length : ℕ)
  /-- Frame arrays must all have the same length. -/
  | arrays (lng lat slot state haulier : ℕ)
deriving DecidableEq

/-- What the codec raises. -/
inductive CodecError where
  | frame (e : FrameError)
  /-- `struct.error`. -/
  | struct
  /-- A `ValueError` of `np.frombuffer`. -/
  | value
deriving DecidableEq

/-! ## Encoding -/

def frameMagic : Bytes := [0x4f, 0x52, 0x44, 0x50]

def frameVersion : ℤ := 1

def headerSize : ℕ := 24

/-- A field of `struct.pack` that holds an unsigned number of `w` bytes. -/
def packUnsigned (w : ℕ) (x : ℤ) : Except CodecError Bytes :=
  if 0 ≤ x ∧ x < 256 ^ w then .ok (leBytes w x.toNat) else .error .struct

/-- `HEADER_STRUCT.pack`, with format `<4sHBBIId`. -/
def packHeader (magic : Bytes) (version kind reserved frameIdx n : ℤ) (simTimeMs : F64) :
    Except CodecError Bytes := do
  let version ← packUnsigned 2 version
  let kind ← packUnsigned 1 kind
  let reserved ← packUnsigned 1 reserved
  let frameIdx ← packUnsigned 4 frameIdx
  let n ← packUnsigned 4 n
  return magic ++ version ++ kind ++ reserved ++ frameIdx ++ n ++ Packing.f64.pack simTimeMs

/-- The columns as bytes. -/
def Columns.tobytes (c : Columns) : Bytes :=
  Packing.f64.packAll c.lng ++ Packing.f64.packAll c.lat ++ Packing.u32.packAll c.slot ++
    Packing.u8.packAll c.state ++ Packing.u8.packAll c.haulier

/-- `encode`. -/
def encode (f : Frame) : Except CodecError Bytes := do
  let header ← packHeader frameMagic f.version f.kind 0 f.frameIdx f.n f.simTimeMs
  return header ++ f.columns.tobytes

/-! ## Decoding -/

/-- The bytes from `off` on, `w` of them. -/
def field (buf : Bytes) (off w : ℕ) : Bytes := (buf.drop off).take w

/-- The fields of a header. -/
structure Header where
  magic : Bytes
  version : ℤ
  kind : ℤ
  reserved : ℤ
  frameIdx : ℤ
  n : ℕ
  simTimeMs : F64

/-- The fields of a header where `struct` finds them. -/
def headerFields (buf : Bytes) : Header where
  magic := field buf 0 4
  version := leValue (field buf 4 2)
  kind := leValue (field buf 6 1)
  reserved := leValue (field buf 7 1)
  frameIdx := leValue (field buf 8 4)
  n := leValue (field buf 12 4)
  simTimeMs := Packing.f64.unpack (field buf 16 8)

/-- `HEADER_STRUCT.unpack`. -/
def unpackHeader (buf : Bytes) : Except CodecError Header :=
  if buf.length = headerSize then .ok (headerFields buf) else .error .struct

/-- `np.frombuffer`. -/
def frombuffer {α : Type} (p : Packing α) (buf : Bytes) (count offset : ℕ) :
    Except CodecError (List α) :=
  if buf.length < offset then .error .value
  else if buf.length - offset < p.width * count then .error .value
  else .ok (p.unpackAll count (buf.drop offset))

/-- `Frame.__post_init__`: the arrays have one length. -/
def Columns.make (lng lat : List F64) (slot : List UInt32) (state haulier : List UInt8) :
    Except CodecError Columns :=
  if h : lat.length = lng.length ∧ slot.length = lng.length ∧ state.length = lng.length ∧
      haulier.length = lng.length then
    .ok ⟨lng, lat, slot, state, haulier, h.1, h.2.1, h.2.2.1, h.2.2.2⟩
  else
    .error (.frame (.arrays lng.length lat.length slot.length state.length haulier.length))

/-- What `decode` does after its checks. -/
def decodeColumns (buf : Bytes) (n : ℕ) : Except CodecError Columns := do
  let lng ← frombuffer .f64 buf n headerSize
  let lat ← frombuffer .f64 buf n (headerSize + 8 * n)
  let slot ← frombuffer .u32 buf n (headerSize + 8 * n + 8 * n)
  let state ← frombuffer .u8 buf n (headerSize + 8 * n + 8 * n + 4 * n)
  let haulier ← frombuffer .u8 buf n (headerSize + 8 * n + 8 * n + 4 * n + n)
  Columns.make lng lat slot state haulier

/-- `decode`. -/
def decode (buf : Bytes) : Except CodecError Frame :=
  if buf.length < headerSize then .error (.frame (.tooShort buf.length))
  else do
    let h ← unpackHeader (buf.take headerSize)
    if h.magic ≠ frameMagic then .error (.frame (.badMagic h.magic))
    else if h.version ≠ frameVersion then
      .error (.frame (.versionMismatch frameVersion h.version))
    else if h.kind ≠ 0 ∧ h.kind ≠ 1 then .error (.frame (.badKind h.kind))
    else if buf.length ≠ headerSize + 22 * h.n then
      .error (.frame (.lengthMismatch (headerSize + 22 * h.n) buf.length))
    else do
      let columns ← decodeColumns buf h.n
      return { frameIdx := h.frameIdx, simTimeMs := h.simTimeMs, columns := columns,
               kind := h.kind, version := h.version }

/-! ## What encoding succeeds with -/

theorem packUnsigned_of_lt {w : ℕ} {x : ℤ} (h : 0 ≤ x) (hlt : x < 256 ^ w) :
    packUnsigned w x = .ok (leBytes w x.toNat) := if_pos ⟨h, hlt⟩

/-- The frames the wire is for. -/
structure Frame.InRange (f : Frame) : Prop where
  version : f.version = 1
  kind : f.kind = 0 ∨ f.kind = 1
  frameIdx : 0 ≤ f.frameIdx ∧ f.frameIdx < 2 ^ 32
  n : f.n < 2 ^ 32

/-- The header of a frame. -/
def Frame.header (f : Frame) : Bytes :=
  frameMagic ++ (leBytes 2 f.version.toNat ++ (leBytes 1 f.kind.toNat ++ (leBytes 1 0 ++
    (leBytes 4 f.frameIdx.toNat ++ (leBytes 4 f.n ++ Packing.f64.pack f.simTimeMs)))))

theorem encode_inRange (h : f.InRange) : encode f = .ok (f.header ++ f.columns.tobytes) := by
  have hversion : packUnsigned 2 f.version = .ok (leBytes 2 f.version.toNat) := by
    have hv := h.version
    exact packUnsigned_of_lt (by omega) (by omega)
  have hkind : packUnsigned 1 f.kind = .ok (leBytes 1 f.kind.toNat) := by
    have hk := h.kind
    exact packUnsigned_of_lt (by omega) (by omega)
  have hidx : packUnsigned 4 f.frameIdx = .ok (leBytes 4 f.frameIdx.toNat) :=
    packUnsigned_of_lt h.frameIdx.1 h.frameIdx.2
  have hn : packUnsigned 4 f.n = .ok (leBytes 4 f.n) := by
    have hlt := h.n
    exact packUnsigned_of_lt (by omega) (by omega)
  rw [encode, packHeader, hversion, hkind, hidx, hn, packUnsigned_of_lt (by decide) (by decide)]
  rfl

/-! ## Fields of a buffer -/

section Field

variable {a rest buf : Bytes} {k off w v : ℕ}

theorem field_skip (h : a.length = k) : field (a ++ rest) (k + off) w = field rest off w := by
  rw [field, field, ← List.drop_drop, List.drop_left' h]

theorem field_here (h : a.length = w) : field (a ++ rest) 0 w = a := by
  rw [field, List.drop_zero, List.take_left' h]

theorem length_field (h : off + w ≤ buf.length) : (field buf off w).length = w := by
  rw [field, List.length_take, List.length_drop]
  omega

theorem field_append (h : k = off + w) :
    field buf off w ++ field buf k v = field buf off (w + v) := by
  rw [h, field, field, field, ← List.drop_drop, ← List.take_add]

theorem field_take (h : off + w ≤ k) : field (buf.take k) off w = field buf off w := by
  rw [field, field, List.drop_take, List.take_take, min_eq_left (by omega)]

theorem field_set {i : ℕ} {b : UInt8} (h : off + w ≤ i ∨ i < off) :
    field (buf.set i b) off w = field buf off w := by
  rw [field, field]
  rcases h with h | h
  · rw [List.take_drop, List.take_set_of_le h, List.take_drop]
  · rw [List.drop_set_of_lt h]

end Field

/-! ## What decoding accepts -/

/-- The header is one of a frame, and its number of rows is that of the body. -/
structure Accepted (buf : Bytes) : Prop where
  magic : field buf 0 4 = frameMagic
  version : leValue (field buf 4 2) = 1
  kind : leValue (field buf 6 1) = 0 ∨ leValue (field buf 6 1) = 1
  length : buf.length = headerSize + 22 * leValue (field buf 12 4)

/-- The columns of `n` rows behind a header. -/
def columnsAt (buf : Bytes) (n : ℕ) : Columns where
  lng := Packing.f64.unpackAll n (buf.drop headerSize)
  lat := Packing.f64.unpackAll n (buf.drop (headerSize + 8 * n))
  slot := Packing.u32.unpackAll n (buf.drop (headerSize + 8 * n + 8 * n))
  state := Packing.u8.unpackAll n (buf.drop (headerSize + 8 * n + 8 * n + 4 * n))
  haulier := Packing.u8.unpackAll n (buf.drop (headerSize + 8 * n + 8 * n + 4 * n + n))
  length_lat := by rw [Packing.length_unpackAll, Packing.length_unpackAll]
  length_slot := by rw [Packing.length_unpackAll, Packing.length_unpackAll]
  length_state := by rw [Packing.length_unpackAll, Packing.length_unpackAll]
  length_haulier := by rw [Packing.length_unpackAll, Packing.length_unpackAll]

/-- The frame a buffer holds. -/
def frameAt (buf : Bytes) : Frame where
  frameIdx := leValue (field buf 8 4)
  simTimeMs := Packing.f64.unpack (field buf 16 8)
  columns := columnsAt buf (leValue (field buf 12 4))
  kind := leValue (field buf 6 1)
  version := leValue (field buf 4 2)

theorem frombuffer_of_le {α : Type} {p : Packing α} {buf : Bytes} {count offset : ℕ} (w : ℕ)
    (hw : p.width = w) (h : offset + w * count ≤ buf.length) :
    frombuffer p buf count offset = .ok (p.unpackAll count (buf.drop offset)) := by
  subst hw
  rw [frombuffer, if_neg (by omega), if_neg (by omega)]

/-- With the right length no column raises. -/
theorem decodeColumns_of_length {buf : Bytes} {n : ℕ} (h : buf.length = headerSize + 22 * n) :
    decodeColumns buf n = .ok (columnsAt buf n) := by
  rw [decodeColumns, frombuffer_of_le 8 rfl (by omega), ok_bind,
    frombuffer_of_le 8 rfl (by omega), ok_bind, frombuffer_of_le 4 rfl (by omega), ok_bind,
    frombuffer_of_le 1 rfl (by omega), ok_bind, frombuffer_of_le 1 rfl (by omega), ok_bind,
    Columns.make, dif_pos (by simp)]
  rfl

theorem unpackHeader_take {buf : Bytes} (h : headerSize ≤ buf.length) :
    unpackHeader (buf.take headerSize) = .ok (headerFields buf) := by
  have hlen : (buf.take headerSize).length = headerSize := by
    rw [List.length_take]
    omega
  have hfields : headerFields (buf.take headerSize) = headerFields buf := by
    rw [headerFields, headerFields, field_take (by decide), field_take (by decide),
      field_take (by decide), field_take (by decide), field_take (by decide),
      field_take (by decide), field_take (by decide)]
  rw [unpackHeader, if_pos hlen, hfields]

/-- **Decoding** accepts the buffers it should, and refuses all others with a `FrameError`. -/
theorem decode_cases (buf : Bytes) :
    (Accepted buf ∧ decode buf = .ok (frameAt buf)) ∨
      (¬ Accepted buf ∧ ∃ e, decode buf = .error (.frame e)) := by
  by_cases hshort : buf.length < headerSize
  · refine Or.inr ⟨fun h ↦ ?_, _, by rw [decode, if_pos hshort]⟩
    have hlength := h.length
    omega
  rw [decode, if_neg hshort, unpackHeader_take (not_lt.mp hshort), ok_bind]
  by_cases hmagic : (headerFields buf).magic = frameMagic
  · rw [if_neg (not_not.mpr hmagic)]
    by_cases hversion : (headerFields buf).version = frameVersion
    · rw [if_neg (not_not.mpr hversion)]
      by_cases hkind : (headerFields buf).kind ≠ 0 ∧ (headerFields buf).kind ≠ 1
      · rw [if_pos hkind]
        refine Or.inr ⟨fun h ↦ ?_, _, rfl⟩
        have hkind' := h.kind
        obtain ⟨h0, h1⟩ : ((leValue (field buf 6 1) : ℕ) : ℤ) ≠ 0 ∧
          ((leValue (field buf 6 1) : ℕ) : ℤ) ≠ 1 := hkind
        omega
      · rw [if_neg hkind]
        by_cases hlength : buf.length = headerSize + 22 * (headerFields buf).n
        · rw [if_neg (not_not.mpr hlength), decodeColumns_of_length hlength]
          have hkind' : ¬ (((leValue (field buf 6 1) : ℕ) : ℤ) ≠ 0 ∧
            ((leValue (field buf 6 1) : ℕ) : ℤ) ≠ 1) := hkind
          have hversion' : ((leValue (field buf 4 2) : ℕ) : ℤ) = 1 := hversion
          exact Or.inl ⟨⟨hmagic, by omega, by omega, hlength⟩, rfl⟩
        · rw [if_pos hlength]
          exact Or.inr ⟨fun h ↦ hlength h.length, _, rfl⟩
    · rw [if_pos hversion]
      refine Or.inr ⟨fun h ↦ hversion ?_, _, rfl⟩
      show ((leValue (field buf 4 2) : ℕ) : ℤ) = 1
      rw [h.version]
      rfl
  · rw [if_pos hmagic]
    exact Or.inr ⟨fun h ↦ hmagic h.magic, _, rfl⟩

/-! ## The reserved byte -/

/-- Decoding does not look at the reserved byte. -/
theorem frameAt_set (buf : Bytes) (b : UInt8) : frameAt (buf.set 7 b) = frameAt buf := by
  have hcolumns : ∀ n, columnsAt (buf.set 7 b) n = columnsAt buf n := by
    intro n
    have hdrop : ∀ k, (buf.set 7 b).drop (headerSize + k) = buf.drop (headerSize + k) :=
      fun k ↦ List.drop_set_of_lt (lt_of_lt_of_le (by decide) (Nat.le_add_right headerSize k))
    have hbody : (buf.set 7 b).drop headerSize = buf.drop headerSize := hdrop 0
    simp only [columnsAt, hbody, Nat.add_assoc, hdrop]
  rw [frameAt, frameAt, field_set (by decide), field_set (by decide), field_set (by decide),
    field_set (by decide), field_set (by decide), hcolumns]

theorem accepted_set (buf : Bytes) (b : UInt8) : Accepted (buf.set 7 b) ↔ Accepted buf := by
  have hfields : ∀ off w, off + w ≤ 7 ∨ 7 < off → field (buf.set 7 b) off w = field buf off w :=
    fun _ _ ↦ field_set
  constructor
  · intro h
    have hmagic := h.magic
    have hversion := h.version
    have hkind := h.kind
    have hlength := h.length
    rw [hfields _ _ (by decide)] at hmagic hversion hkind hlength
    rw [List.length_set] at hlength
    exact ⟨hmagic, hversion, hkind, hlength⟩
  · intro h
    refine ⟨?_, ?_, ?_, ?_⟩
    · rw [hfields _ _ (by decide)]
      exact h.magic
    · rw [hfields _ _ (by decide)]
      exact h.version
    · rw [hfields _ _ (by decide)]
      exact h.kind
    · rw [hfields _ _ (by decide), List.length_set]
      exact h.length

/-! ## Encoding what was decoded -/

/-- The number a field holds, written in the width of the field. -/
theorem leBytes_field {buf : Bytes} {off w : ℕ} (h : off + w ≤ buf.length) :
    leBytes w (leValue (field buf off w)) = field buf off w := by
  have hback := leBytes_leValue (field buf off w)
  rwa [length_field h] at hback

/-- **The header of the frame that is read** is the one it was read from, up to the reserved
byte. -/
theorem header_frameAt {buf : Bytes} (h : Accepted buf) :
    (frameAt buf).header ++ buf.drop headerSize = buf.set 7 0 := by
  have hlength : 24 ≤ buf.length := by
    rw [h.length]
    exact Nat.le_add_right _ _
  have hn : (frameAt buf).n = leValue (field buf 12 4) := Packing.length_unpackAll _ _ _
  have hbefore : field buf 0 4 ++ (field buf 4 2 ++ field buf 6 1) = buf.take 7 := by
    rw [field_append rfl, field_append rfl]
    rfl
  have hafter : field buf 8 4 ++ (field buf 12 4 ++ (field buf 16 8 ++ buf.drop headerSize)) =
      buf.drop 8 := by
    have hrest : buf.drop headerSize = field buf 24 (buf.length - 24) := by
      rw [field, List.take_of_length_le]
      · rfl
      · rw [List.length_drop]
    rw [hrest, field_append rfl, field_append rfl, field_append rfl, field,
      List.take_of_length_le]
    rw [List.length_drop]
    omega
  have hmiddle : leBytes 1 0 = [(0 : UInt8)] := rfl
  have htime : Packing.f64.pack (Packing.f64.unpack (field buf 16 8)) = field buf 16 8 :=
    Packing.pack_unpack _ _ (length_field (by omega))
  rw [Frame.header, hn]
  simp only [frameAt, Int.toNat_natCast]
  rw [leBytes_field (by omega), leBytes_field (by omega), leBytes_field (by omega),
    leBytes_field (by omega), htime, ← h.magic, hmiddle, List.set_eq_take_append_cons_drop,
    if_pos (by omega), ← hbefore, ← hafter]
  simp only [List.append_assoc, List.cons_append, List.nil_append]

theorem tobytes_columnsAt {buf : Bytes} {n : ℕ} (h : buf.length = headerSize + 22 * n) :
    (columnsAt buf n).tobytes = buf.drop headerSize := by
  have hcolumn : ∀ {α : Type} (p : Packing α) (w off : ℕ), p.width = w →
      off + w * n ≤ buf.length →
        p.packAll (p.unpackAll n (buf.drop off)) = field buf off (w * n) := by
    intro α p w off hw hle
    subst hw
    rw [field, p.packAll_unpackAll]
    rw [List.length_drop]
    omega
  rw [Columns.tobytes, columnsAt]
  rw [hcolumn _ 8 _ rfl (by omega), hcolumn _ 8 _ rfl (by omega), hcolumn _ 4 _ rfl (by omega),
    hcolumn _ 1 _ rfl (by omega), hcolumn _ 1 _ rfl (by omega), field_append rfl,
    field_append (by omega), field_append (by omega), field_append (by omega), field,
    List.take_of_length_le]
  rw [List.length_drop]
  omega

/-! ## Decoding what was encoded -/

theorem length_header (f : Frame) : f.header.length = headerSize := by
  rfl

theorem length_tobytes (c : Columns) : c.tobytes.length = 22 * c.lng.length := by
  have hf : Packing.f64.width = 8 := rfl
  have hw : Packing.u32.width = 4 := rfl
  have hb : Packing.u8.width = 1 := rfl
  simp only [Columns.tobytes, List.length_append, Packing.length_packAll, c.length_lat,
    c.length_slot, c.length_state, c.length_haulier, hf, hw, hb]
  omega

/-- The columns are read back from behind any header. -/
theorem columnsAt_tobytes {head : Bytes} (hhead : head.length = headerSize) (c : Columns) :
    columnsAt (head ++ c.tobytes) c.lng.length = c := by
  have hskip : ∀ {a rest : Bytes} {k off : ℕ}, a.length = k →
      (a ++ rest).drop (k + off) = rest.drop off := by
    intro a rest k off h
    rw [← List.drop_drop, List.drop_left' h]
  have hlng : (Packing.f64.packAll c.lng).length = 8 * c.lng.length := Packing.length_packAll _ _
  have hlat : (Packing.f64.packAll c.lat).length = 8 * c.lng.length := by
    rw [← c.length_lat]
    exact Packing.length_packAll _ _
  have hslot : (Packing.u32.packAll c.slot).length = 4 * c.lng.length := by
    rw [← c.length_slot]
    exact Packing.length_packAll _ _
  have hstate : (Packing.u8.packAll c.state).length = c.lng.length := by
    rw [← c.length_state, Packing.length_packAll]
    exact Nat.one_mul _
  rw [Columns.tobytes]
  simp only [List.append_assoc]
  refine Columns.ext ?_ ?_ ?_ ?_ ?_
  · show Packing.f64.unpackAll _ (List.drop headerSize _) = _
    rw [List.drop_left' hhead, Packing.unpackAll_packAll]
  · show Packing.f64.unpackAll _ (List.drop (headerSize + 8 * _) _) = _
    rw [hskip hhead, List.drop_left' hlng, ← c.length_lat, Packing.unpackAll_packAll]
  · show Packing.u32.unpackAll _ (List.drop (headerSize + 8 * _ + 8 * _) _) = _
    rw [Nat.add_assoc, hskip hhead, hskip hlng, List.drop_left' hlat, ← c.length_slot,
      Packing.unpackAll_packAll]
  · show Packing.u8.unpackAll _ (List.drop (headerSize + 8 * _ + 8 * _ + 4 * _) _) = _
    rw [Nat.add_assoc, Nat.add_assoc, hskip hhead, hskip hlng, hskip hlat, List.drop_left' hslot,
      ← c.length_state, Packing.unpackAll_packAll]
  · show Packing.u8.unpackAll _ (List.drop (headerSize + 8 * _ + 8 * _ + 4 * _ + _) _) = _
    rw [Nat.add_assoc, Nat.add_assoc, Nat.add_assoc, hskip hhead, hskip hlng, hskip hlat,
      hskip hslot, List.drop_left' hstate, ← c.length_haulier]
    have hback := Packing.u8.unpackAll_packAll c.haulier []
    rwa [List.append_nil] at hback

theorem fields_encoded (f : Frame) (body : Bytes) :
    field (f.header ++ body) 0 4 = frameMagic ∧
      field (f.header ++ body) 4 2 = leBytes 2 f.version.toNat ∧
      field (f.header ++ body) 6 1 = leBytes 1 f.kind.toNat ∧
      field (f.header ++ body) 8 4 = leBytes 4 f.frameIdx.toNat ∧
      field (f.header ++ body) 12 4 = leBytes 4 f.n ∧
      field (f.header ++ body) 16 8 = Packing.f64.pack f.simTimeMs := by
  have hskip : ∀ {a rest : Bytes} (k off : ℕ) {w : ℕ}, a.length = k →
      field (a ++ rest) (k + off) w = field rest off w := fun _ _ ↦ field_skip
  have hmagic : frameMagic.length = 4 := rfl
  have hversion := length_leBytes 2 f.version.toNat
  have hkind := length_leBytes 1 f.kind.toNat
  have hreserved := length_leBytes 1 0
  have hidx := length_leBytes 4 f.frameIdx.toNat
  have hn := length_leBytes 4 f.n
  simp only [Frame.header, List.append_assoc]
  refine ⟨field_here hmagic, ?_, ?_, ?_, ?_, ?_⟩
  · rw [hskip 4 0 hmagic, field_here hversion]
  · rw [hskip 4 2 hmagic, hskip 2 0 hversion, field_here hkind]
  · rw [hskip 4 4 hmagic, hskip 2 2 hversion, hskip 1 1 hkind,
      hskip 1 0 hreserved, field_here hidx]
  · rw [hskip 4 8 hmagic, hskip 2 6 hversion, hskip 1 5 hkind,
      hskip 1 4 hreserved, hskip 4 0 hidx, field_here hn]
  · rw [hskip 4 12 hmagic, hskip 2 10 hversion, hskip 1 9 hkind,
      hskip 1 8 hreserved, hskip 4 4 hidx, hskip 4 0 hn]
    exact field_here (Packing.length_pack _ _)

/-- **A frame in range** is written as a buffer that decoding accepts and reads as this frame. -/
theorem accepted_encoded (h : f.InRange) :
    Accepted (f.header ++ f.columns.tobytes) ∧ frameAt (f.header ++ f.columns.tobytes) = f := by
  obtain ⟨hmagic, hversion, hkind, hidx, hn, htime⟩ := fields_encoded f f.columns.tobytes
  have hversion' : leValue (field (f.header ++ f.columns.tobytes) 4 2) = f.version.toNat := by
    rw [hversion, leValue_leBytes]
    rw [h.version]
    decide
  have hkind' : leValue (field (f.header ++ f.columns.tobytes) 6 1) = f.kind.toNat := by
    rw [hkind, leValue_leBytes]
    have hk := h.kind
    omega
  have hidx' : leValue (field (f.header ++ f.columns.tobytes) 8 4) = f.frameIdx.toNat := by
    rw [hidx, leValue_leBytes]
    have hi := h.frameIdx
    omega
  have hn' : leValue (field (f.header ++ f.columns.tobytes) 12 4) = f.n := by
    rw [hn, leValue_leBytes]
    exact h.n
  have hk := h.kind
  have hi := h.frameIdx
  have hv := h.version
  constructor
  · refine ⟨hmagic, by omega, by omega, ?_⟩
    rw [hn', List.length_append, length_header, length_tobytes]
    rfl
  · have hcolumns := columnsAt_tobytes (length_header f) f.columns
    rw [frameAt, hversion', hkind', hidx', hn', htime, Packing.unpack_pack, Frame.n, hcolumns,
      Int.toNat_of_nonneg hi.1, Int.toNat_of_nonneg (by omega), Int.toNat_of_nonneg (by omega)]

theorem inRange_frameAt {buf : Bytes} (h : Accepted buf) : (frameAt buf).InRange := by
  have hidx := leValue_lt (field buf 8 4)
  have hn := leValue_lt (field buf 12 4)
  have hlen : 24 ≤ buf.length := by
    rw [h.length]
    exact Nat.le_add_right _ _
  rw [length_field (by omega)] at hidx hn
  refine ⟨?_, ?_, ⟨Int.natCast_nonneg _, ?_⟩, ?_⟩
  · show ((leValue (field buf 4 2) : ℕ) : ℤ) = 1
    rw [h.version]
    rfl
  · show ((leValue (field buf 6 1) : ℕ) : ℤ) = 0 ∨ ((leValue (field buf 6 1) : ℕ) : ℤ) = 1
    have hkind := h.kind
    omega
  · show ((leValue (field buf 8 4) : ℕ) : ℤ) < 2 ^ 32
    omega
  · show (Packing.f64.unpackAll _ _).length < 2 ^ 32
    rw [Packing.length_unpackAll]
    omega

/-- **The codec**: a buffer is read as a frame just when the frame is in range and written as this
buffer with a reserved byte of zero. -/
theorem decode_eq_ok_iff {buf : Bytes} :
    decode buf = .ok f ↔ f.InRange ∧ encode f = .ok (buf.set 7 0) := by
  constructor
  · intro hdecode
    rcases decode_cases buf with ⟨haccepted, hok⟩ | ⟨-, e, herror⟩
    · rw [hok] at hdecode
      cases hdecode
      have hrange := inRange_frameAt haccepted
      refine ⟨hrange, ?_⟩
      have hcolumns : (frameAt buf).columns.tobytes = buf.drop headerSize :=
        tobytes_columnsAt haccepted.length
      rw [encode_inRange hrange, hcolumns, header_frameAt haccepted]
    · rw [herror] at hdecode
      cases hdecode
  · rintro ⟨hrange, hencode⟩
    obtain ⟨haccepted, hframe⟩ := accepted_encoded hrange
    rw [encode_inRange hrange] at hencode
    rw [Except.ok.inj hencode, accepted_set] at haccepted
    rw [Except.ok.inj hencode, frameAt_set] at hframe
    rcases decode_cases buf with ⟨-, hok⟩ | ⟨hnot, -⟩
    · rw [hok, hframe]
    · exact absurd haccepted hnot

/-- **The codec is a bijection but for the reserved byte.**  What was encoded is decoded to the same
frame; what decodes is encoded again byte for byte, with a reserved byte of zero; and whatever else
there is is refused with a `FrameError`. -/
theorem codec_inverse :
    (∀ f : Frame, f.InRange → f.Finite →
      ∃ b g, encode f = .ok b ∧ decode b = .ok g ∧ g = f ∧ g.eq f = true) ∧
    (∀ buf f, decode buf = .ok f → f.InRange ∧ encode f = .ok (buf.set 7 0)) ∧
    ∀ buf, (¬ ∃ f : Frame, f.InRange ∧ encode f = .ok (buf.set 7 0)) →
      ∃ e, decode buf = .error (.frame e) := by
  refine ⟨fun f hrange hfinite ↦ ?_, fun buf f ↦ decode_eq_ok_iff.mp, fun buf hnone ↦ ?_⟩
  · obtain ⟨haccepted, hframe⟩ := accepted_encoded hrange
    refine ⟨_, f, encode_inRange hrange, ?_, rfl, Frame.eq_self hfinite⟩
    rcases decode_cases (f.header ++ f.columns.tobytes) with ⟨-, hok⟩ | ⟨hnot, -⟩
    · rw [hok, hframe]
    · exact absurd haccepted hnot
  · rcases decode_cases buf with ⟨-, hok⟩ | ⟨-, herror⟩
    · exact absurd ⟨_, decode_eq_ok_iff.mp hok⟩ hnone
    · exact herror

/-- A frame of one row: longitude 1, latitude 2. -/
def oneRow : Frame where
  frameIdx := 7
  simTimeMs := ⟨0⟩
  columns := ⟨[⟨0x3ff0000000000000⟩], [⟨0x4000000000000000⟩], [3], [4], [5], rfl, rfl, rfl, rfl⟩

theorem codec_inverse_oneRow :
    (∃ b g, encode oneRow = .ok b ∧ decode b = .ok g ∧ g = oneRow ∧ g.eq oneRow = true) ∧
      ∃ e, decode [0x4f, 0x52] = .error (.frame e) := by
  refine ⟨codec_inverse.1 oneRow ⟨rfl, Or.inl rfl, by decide, by decide⟩
    ⟨by decide, by decide, by decide⟩, codec_inverse.2.2 _ ?_⟩
  rintro ⟨f, hrange, hencode⟩
  have hok := decode_eq_ok_iff.mpr ⟨hrange, hencode⟩
  have hshort : decode [0x4f, 0x52] = .error (.frame (.tooShort 2)) := rfl
  rw [hshort] at hok
  cases hok

/-- A frame without rows. -/
def emptyFrame : Frame where
  frameIdx := 0
  simTimeMs := ⟨0⟩
  columns := ⟨[], [], [], [], [], rfl, rfl, rfl, rfl⟩

/-- A frame without rows, with a reserved byte of one. -/
def reservedOne : Bytes := frameMagic ++ [1, 0, 0, 1] ++ List.replicate 16 0

/-- It is decoded, and encoded again it is another string. -/
theorem reserved_byte_ignored :
    ∃ f, decode reservedOne = .ok f ∧ encode f ≠ .ok reservedOne := by
  refine ⟨emptyFrame, by rfl, fun hencode ↦ ?_⟩
  have hzero : encode emptyFrame = .ok (frameMagic ++ [1, 0, 0, 0] ++ List.replicate 16 0) := by
    rfl
  rw [hzero] at hencode
  exact absurd (Except.ok.inj hencode) (by decide)

end OpenRide.Dataplane.Wire
