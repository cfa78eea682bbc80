import LidarSync.Proofs.Cloud.Points
import Mathlib.Data.List.Forall2

/-!
# What bringing a cloud into the packed layout keeps

`Cloud.Readable` says of a cloud, whatever its layout, that its points can be read, and `Cloud.Shows`
what the record of a point holds. A cloud is brought into the packed layout exactly when it is readable,
and otherwise the fault is a flaw of the cloud (`Cloud.Flawed`). Reading packed records at the offsets of
their fields is reading them one after the other (`Cloud.pointsOf_of_isPacked`), so whether a cloud is
taken as it is or packed again, its points are those that the records of the given cloud show
(`Cloud.packed_exact`).
-/

namespace LidarSync

theorem Single.toBytes_ofBytes (a b c d : UInt8) : (ofBytes a b c d).toBytes = [a, b, c, d] := by
  unfold toBytes ofBytes
  simp only [List.cons.injEq, and_true]
  refine ⟨?_, ?_, ?_, ?_⟩ <;>
    · apply UInt8.eq_of_toBitVec_eq
      apply BitVec.eq_of_getLsbD_eq
      intro i hi
      simp only [UInt32.toBitVec_toUInt8, UInt32.toBitVec_shiftRight, UInt32.toBitVec_or,
        UInt8.toBitVec_toUInt32, UInt32.toBitVec_shiftLeft, UInt32.toBitVec_ofNat,
        BitVec.ofNat_eq_ofNat, BitVec.reduceMod, BitVec.shiftLeft_eq', BitVec.toNat_ofNat,
        Nat.reducePow, Nat.reduceMod, BitVec.ushiftRight_eq', BitVec.getLsbD_setWidth,
        BitVec.getLsbD_ushiftRight, BitVec.getLsbD_or, BitVec.getLsbD_shiftLeft]
      grind

namespace Cloud

variable {c p : Cloud} {o : Offsets} {name : String} {offset i n stride : Nat} {x : Single}
  {record bytes : List UInt8} {q : Point} {fault : CloudFault}

/-! ## What can be read, and what is read -/

/-- The first field of a name lies within the record. -/
def Within (c : Cloud) (name : String) : Prop := ∃ f, c.field? name = some f ∧ f.offset + 4 ≤ c.stride

/-- The points of a cloud can be read: the payload has all records, and the fields lie within them. -/
structure Readable (c : Cloud) : Prop where
  stride_pos : 0 < c.stride
  long : c.count * c.stride ≤ c.payload.length
  coordinates : ∀ name ∈ ["x", "y", "z"], c.Within name
  intensity : (∃ f ∈ c.fields, f.name = "intensity") → c.Within "intensity"

/-- What is wrong with a cloud that cannot be read. -/
inductive Flawed (c : Cloud) : CloudFault → Prop where
  | payload (hshort : c.stride = 0 ∨ c.payload.length < c.count * c.stride) :
      Flawed c (.shortPayload c.payload.length c.count c.stride)
  | missing {name : String} (hname : name ∈ ["x", "y", "z"]) (hnone : c.field? name = none) :
      Flawed c (.missingField name)
  | beyond {name : String} {f : Field} (hname : name ∈ ["x", "y", "z", "intensity"])
      (hfield : c.field? name = some f) (hbeyond : c.stride < f.offset + 4) :
      Flawed c (.fieldBeyondStride f c.stride)

/-- The record at a place holds a component: its four bytes stand at the offset of the first field of
its name, the least significant one first. -/
def Holds (c : Cloud) (i : Nat) (name : String) (x : Single) : Prop :=
  ∃ f, c.field? name = some f ∧ (c.payload.drop (i * c.stride + f.offset)).take 4 = x.toBytes

/-- The record at a place shows a point. Where no field is called intensity, that of the point is zero. -/
structure Shows (c : Cloud) (i : Nat) (q : Point) : Prop where
  x : c.Holds i "x" q.x
  y : c.Holds i "y" q.y
  z : c.Holds i "z" q.z
  intensity : c.Holds i "intensity" q.intensity ∨
    (∀ f ∈ c.fields, f.name ≠ "intensity") ∧ q.intensity = .zero

/-- A cloud is a packed form of another one. -/
structure IsPackedFrom (p c : Cloud) : Prop where
  header : p.header = c.header
  count : p.count = c.count
  stride : p.stride = packedStride
  fields : p.fields = packedFields
  long : p.count * p.stride ≤ p.payload.length
  points : ∃ ps, p.points = .ok ps ∧ ps.length = c.count ∧
    ∀ (i : Nat) (hi : i < ps.length), c.Shows i ps[i]
  again : p.packed = .ok p

/-- The numbers of a cloud are 32-bit words. -/
structure Words (c : Cloud) : Prop where
  count : c.count < 0x100000000
  stride : c.stride < 0x100000000
  offsets : ∀ f ∈ c.fields, f.offset < 0x100000000

/-! ## Components -/

theorem componentAt_eq_some_iff :
    componentAt record offset = some x ↔ (record.drop offset).take 4 = x.toBytes := by
  unfold componentAt
  split
  · next a b c d rest hdrop =>
    rw [hdrop, Option.some.injEq]
    constructor
    · rintro rfl
      exact (Single.toBytes_ofBytes a b c d).symm
    · intro hbytes
      obtain ⟨rfl, rfl, rfl, rfl⟩ : _ ∧ _ ∧ _ ∧ _ := by
        simpa only [List.take, Single.toBytes, List.cons.injEq, and_true] using hbytes
      exact x.ofBytes_toBytes
  · next hshort =>
    refine iff_of_false nofun fun hbytes => ?_
    obtain ⟨word⟩ := x
    match hdrop : record.drop offset, hbytes with
    | a :: b :: c :: d :: rest, _ => exact hshort a b c d rest hdrop

theorem exists_componentAt (hwithin : offset + 4 ≤ record.length) :
    ∃ x, componentAt record offset = some x := by
  have hlength : 4 ≤ (record.drop offset).length := by
    rw [List.length_drop]
    omega
  unfold componentAt
  match hdrop : record.drop offset, hlength with
  | a :: b :: c :: d :: rest, _ => exact ⟨_, rfl⟩

/-! ## Records -/

theorem length_records (stride n : Nat) (bytes : List UInt8) :
    (records stride n bytes).length = n := by
  induction n generalizing bytes with
  | zero => rfl
  | succ n ih => rw [records, List.length_cons, ih]

theorem getElem_records (hi : i < (records stride n bytes).length) :
    (records stride n bytes)[i] = (bytes.drop (i * stride)).take stride := by
  induction n generalizing bytes i with
  | zero => exact absurd hi (Nat.not_lt_zero i)
  | succ n ih =>
    cases i with
    | zero => rw [Nat.zero_mul, List.drop_zero]; rfl
    | succ i =>
      have hplace : (i + 1) * stride = stride + i * stride := by
        rw [Nat.add_mul, Nat.one_mul, Nat.add_comm]
      simp only [records, List.getElem_cons_succ]
      rw [ih, List.drop_drop, hplace]

theorem flatten_records (stride n : Nat) (bytes : List UInt8) :
    (records stride n bytes).flatten = bytes.take (n * stride) := by
  induction n generalizing bytes with
  | zero => rw [Nat.zero_mul, List.take_zero]; rfl
  | succ n ih =>
    have hlength : (n + 1) * stride = stride + n * stride := by
      rw [Nat.add_mul, Nat.one_mul, Nat.add_comm]
    rw [records, List.flatten_cons, ih, hlength, List.take_add]

/-- Each record of a payload that is long enough has its full length. -/
theorem length_of_mem_records (hlong : n * stride ≤ bytes.length) (hr : record ∈ records stride n bytes) :
    record.length = stride := by
  obtain ⟨i, hi, rfl⟩ := List.getElem_of_mem hr
  rw [getElem_records]
  rw [length_records] at hi
  have hroom : (i + 1) * stride ≤ n * stride := Nat.mul_le_mul_right stride hi
  rw [Nat.add_mul, Nat.one_mul] at hroom
  rw [List.length_take, List.length_drop]
  omega

/-- What stands at an offset of a record stands there in the payload. -/
theorem take_drop_record (hi : i < (records stride n bytes).length) (hwithin : offset + 4 ≤ stride) :
    ((records stride n bytes)[i].drop offset).take 4 = (bytes.drop (i * stride + offset)).take 4 := by
  rw [getElem_records, List.drop_take, List.take_take, List.drop_drop]
  congr 1
  omega

/-! ## Offsets -/

/-- The first field of a name lies at an offset, within the record. -/
def LiesAt (c : Cloud) (name : String) (offset : Nat) : Prop :=
  ∃ f, c.field? name = some f ∧ f.offset + 4 ≤ c.stride ∧ f.offset = offset

/-- The offsets at which the components of the points of a cloud are read. -/
structure Places (c : Cloud) (o : Offsets) : Prop where
  x : c.LiesAt "x" o.x
  y : c.LiesAt "y" o.y
  z : c.LiesAt "z" o.z
  intensity : (∃ offset, c.LiesAt "intensity" offset ∧ o.intensity = some offset) ∨
    c.field? "intensity" = none ∧ o.intensity = none

theorem within_iff : c.Within name ↔ ∃ offset, c.LiesAt name offset :=
  ⟨fun ⟨f, hfield, hwithin⟩ => ⟨f.offset, f, hfield, hwithin, rfl⟩,
    fun ⟨_, f, hfield, hwithin, _⟩ => ⟨f, hfield, hwithin⟩⟩

theorem field?_eq_none_iff : c.field? name = none ↔ ∀ f ∈ c.fields, f.name ≠ name := by
  unfold field?
  simp only [List.find?_eq_none, beq_iff_eq, ne_eq]

theorem offset_eq_ok_iff : c.offset name = .ok offset ↔ c.LiesAt name offset := by
  unfold Cloud.offset LiesAt
  cases hfield : c.field? name with
  | none => exact iff_of_false nofun fun ⟨f, hf, _⟩ => nomatch hf
  | some f =>
    dsimp only
    split
    · next hbeyond =>
      refine iff_of_false nofun ?_
      rintro ⟨f', hf', hwithin, -⟩
      cases hf'
      omega
    · next hwithin =>
      rw [Except.ok.injEq]
      constructor
      · rintro rfl
        exact ⟨f, rfl, Nat.not_lt.1 hwithin, rfl⟩
      · rintro ⟨f', hf', -, hoffset⟩
        cases hf'
        exact hoffset

theorem offset_eq_error_iff : c.offset name = .error fault ↔
    (c.field? name = none ∧ fault = .missingField name) ∨
    ∃ f, c.field? name = some f ∧ c.stride < f.offset + 4 ∧ fault = .fieldBeyondStride f c.stride := by
  unfold Cloud.offset
  cases hfield : c.field? name with
  | none => simp [eq_comm]
  | some f =>
    dsimp only
    split
    · next hbeyond => simp [hbeyond, eq_comm]
    · next hwithin => simp [hwithin]

theorem offset?_eq_ok_iff {place : Option Nat} : c.offset? name = .ok place ↔
    (∃ offset, c.LiesAt name offset ∧ place = some offset) ∨ c.field? name = none ∧ place = none := by
  unfold Cloud.offset?
  cases hfield : c.field? name with
  | none => simp [LiesAt, hfield, eq_comm]
  | some f =>
    dsimp only
    rw [map_eq_ok]
    simp only [offset_eq_ok_iff]
    constructor
    · rintro ⟨offset, hlies, rfl⟩
      exact Or.inl ⟨offset, hlies, rfl⟩
    · rintro (⟨offset, hlies, rfl⟩ | ⟨hnone, -⟩)
      · exact ⟨offset, hlies, rfl⟩
      · exact absurd hnone nofun

theorem offsets_eq_ok_iff : c.offsets = .ok o ↔ c.Places o := by
  unfold Cloud.offsets
  constructor
  · intro h
    obtain ⟨x, hx, h⟩ := bind_eq_ok.1 h
    obtain ⟨y, hy, h⟩ := bind_eq_ok.1 h
    obtain ⟨z, hz, h⟩ := bind_eq_ok.1 h
    obtain ⟨i, hi, h⟩ := bind_eq_ok.1 h
    cases h
    exact ⟨offset_eq_ok_iff.1 hx, offset_eq_ok_iff.1 hy, offset_eq_ok_iff.1 hz,
      offset?_eq_ok_iff.1 hi⟩
  · rintro ⟨hx, hy, hz, hi⟩
    exact bind_eq_ok.2 ⟨o.x, offset_eq_ok_iff.2 hx, bind_eq_ok.2 ⟨o.y, offset_eq_ok_iff.2 hy,
      bind_eq_ok.2 ⟨o.z, offset_eq_ok_iff.2 hz,
        bind_eq_ok.2 ⟨o.intensity, offset?_eq_ok_iff.2 hi, rfl⟩⟩⟩⟩

theorem flawed_of_offset (hname : name ∈ ["x", "y", "z"]) (h : c.offset name = .error fault) :
    c.Flawed fault := by
  rcases offset_eq_error_iff.1 h with ⟨hnone, rfl⟩ | ⟨f, hfield, hbeyond, rfl⟩
  · exact .missing hname hnone
  · exact .beyond (List.mem_append_left ["intensity"] hname) hfield hbeyond

theorem flawed_of_offsets (h : c.offsets = .error fault) : c.Flawed fault := by
  unfold Cloud.offsets at h
  rcases bind_eq_error.1 h with h | ⟨x, -, h⟩
  · exact flawed_of_offset (by simp) h
  rcases bind_eq_error.1 h with h | ⟨y, -, h⟩
  · exact flawed_of_offset (by simp) h
  rcases bind_eq_error.1 h with h | ⟨z, -, h⟩
  · exact flawed_of_offset (by simp) h
  rcases bind_eq_error.1 h with h | ⟨i, -, h⟩
  · unfold Cloud.offset? at h
    split at h
    · exact absurd h nofun
    · next hfield =>
      rw [map_eq_error, offset_eq_error_iff] at h
      rcases h with ⟨hnone, -⟩ | ⟨f, hfield, hbeyond, rfl⟩
      · rw [hnone] at hfield
        exact absurd hfield nofun
      · exact .beyond (by simp) hfield hbeyond
  · exact absurd h nofun

/-! ## Points -/

/-- The intensity that a record has at an offset, and zero without one. -/
def intensityAt (record : List UInt8) : Option Nat → Option Single
  | some offset => componentAt record offset
  | none => some .zero

theorem point?_eq_some_iff : o.point? record = some q ↔
    componentAt record o.x = some q.x ∧ componentAt record o.y = some q.y ∧
    componentAt record o.z = some q.z ∧ intensityAt record o.intensity = some q.intensity := by
  obtain ⟨qx, qy, qz, qi⟩ := q
  unfold Offsets.point? intensityAt
  cases componentAt record o.x with
  | none => simp
  | some x =>
    cases componentAt record o.y with
    | none => simp
    | some y =>
      cases componentAt record o.z with
      | none => simp
      | some z =>
        cases o.intensity with
        | none => simp
        | some offset => cases hi : componentAt record offset <;> simp [hi]

theorem LiesAt.exists_component (hlies : c.LiesAt name offset) (hlength : record.length = c.stride) :
    ∃ x, componentAt record offset = some x := by
  obtain ⟨f, -, hwithin, rfl⟩ := hlies
  exact exists_componentAt (hlength ▸ hwithin)

theorem exists_point (ho : c.Places o) (hlength : record.length = c.stride) :
    ∃ q, o.point? record = some q := by
  obtain ⟨x, hx⟩ := ho.x.exists_component hlength
  obtain ⟨y, hy⟩ := ho.y.exists_component hlength
  obtain ⟨z, hz⟩ := ho.z.exists_component hlength
  obtain ⟨i, hi⟩ : ∃ i, intensityAt record o.intensity = some i := by
    rcases ho.intensity with ⟨offset, hlies, hsome⟩ | ⟨-, hnone⟩
    · rw [hsome]
      exact hlies.exists_component hlength
    · exact ⟨.zero, by rw [hnone]; rfl⟩
  exact ⟨⟨x, y, z, i⟩, point?_eq_some_iff.2 ⟨hx, hy, hz, hi⟩⟩

theorem LiesAt.holds (hlies : c.LiesAt name offset) (hi : i < (records c.stride n c.payload).length)
    (hx : componentAt (records c.stride n c.payload)[i] offset = some x) : c.Holds i name x := by
  obtain ⟨f, hfield, hwithin, rfl⟩ := hlies
  refine ⟨f, hfield, ?_⟩
  rw [← take_drop_record hi hwithin]
  exact componentAt_eq_some_iff.1 hx

/-- A point that is read off a record of the payload is the one that the record shows. -/
theorem shows_of_point (ho : c.Places o) (hi : i < (records c.stride n c.payload).length)
    (hq : o.point? (records c.stride n c.payload)[i] = some q) : c.Shows i q := by
  obtain ⟨hx, hy, hz, hlast⟩ := point?_eq_some_iff.1 hq
  refine ⟨ho.x.holds hi hx, ho.y.holds hi hy, ho.z.holds hi hz, ?_⟩
  rcases ho.intensity with ⟨offset, hlies, hsome⟩ | ⟨hnone, hoi⟩
  · rw [hsome] at hlast
    exact Or.inl (hlies.holds hi hlast)
  · rw [hoi] at hlast
    exact Or.inr ⟨field?_eq_none_iff.1 hnone, (Option.some.inj hlast).symm⟩

theorem exists_pointsAt {rs : List (List UInt8)} (hrs : ∀ r ∈ rs, ∃ q, o.point? r = some q) :
    ∃ ps, pointsAt o rs = .ok ps ∧ List.Forall₂ (fun r q => o.point? r = some q) rs ps := by
  obtain ⟨ps, hps, hall⟩ : ∃ ps, rs.mapM o.point? = some ps ∧
      List.Forall₂ (fun r q => o.point? r = some q) rs ps := by
    induction rs with
    | nil => exact ⟨[], rfl, .nil⟩
    | cons r rest ih =>
      obtain ⟨hfirst, hrest⟩ := List.forall_mem_cons.1 hrs
      obtain ⟨q, hq⟩ := hfirst
      obtain ⟨qs, hqs, hall⟩ := ih hrest
      exact ⟨q :: qs, by rw [List.mapM_cons, hq, hqs]; rfl, .cons hq hall⟩
  exact ⟨ps, by unfold pointsAt; rw [hps], hall⟩

/-- All records of a long enough payload are read, and each point is what its record shows. -/
theorem exists_points (hlong : c.count * c.stride ≤ c.payload.length) (ho : c.Places o) :
    ∃ ps, pointsAt o (records c.stride c.count c.payload) = .ok ps ∧ ps.length = c.count ∧
      (∀ (i : Nat) (hi : i < ps.length), c.Shows i ps[i]) ∧
      List.Forall₂ (fun r q => o.point? r = some q) (records c.stride c.count c.payload) ps := by
  obtain ⟨ps, hps, hall⟩ := exists_pointsAt fun r hr =>
    exists_point ho (length_of_mem_records hlong hr)
  have hlength : ps.length = (records c.stride c.count c.payload).length := hall.length_eq.symm
  refine ⟨ps, hps, hlength.trans (length_records _ _ _), fun i hi => ?_, hall⟩
  exact shows_of_point ho (hlength ▸ hi) (hall.get (hlength ▸ hi) hi)

/-! ## The packed layout -/

/-- Where the components of a point lie in a packed record. -/
def packedOffsets : Offsets := ⟨0, 4, 8, some 12⟩

theorem isPacked_iff : c.isPacked = true ↔ c.stride = packedStride ∧ c.fields = packedFields := by
  unfold isPacked
  rw [Bool.and_eq_true, beq_iff_eq, beq_iff_eq]

theorem stride_pos_of_isPacked (hpacked : c.isPacked = true) : 0 < c.stride := by
  rw [(isPacked_iff.1 hpacked).1, packedStride]
  omega

theorem places_of_isPacked (hpacked : c.isPacked = true) : c.Places packedOffsets := by
  obtain ⟨hstride, hfields⟩ := isPacked_iff.1 hpacked
  have hlies (f : Field) (hf : packedFields.find? (·.name == f.name) = some f)
      (hwithin : f.offset + 4 ≤ packedStride) : c.LiesAt f.name f.offset := by
    refine ⟨f, ?_, hstride ▸ hwithin, rfl⟩
    unfold field?
    rw [hfields, hf]
  exact ⟨hlies ⟨"x", 0⟩ (by decide) (by decide), hlies ⟨"y", 4⟩ (by decide) (by decide),
    hlies ⟨"z", 8⟩ (by decide) (by decide),
    Or.inl ⟨12, hlies ⟨"intensity", 12⟩ (by decide) (by decide), rfl⟩⟩

/-- A point has the bytes of the packed record that it is read off. -/
theorem toBytes_of_point (hlength : record.length = packedStride)
    (hq : packedOffsets.point? record = some q) : q.toBytes = record := by
  obtain ⟨hx, hy, hz, hi⟩ := point?_eq_some_iff.1 hq
  have hx := componentAt_eq_some_iff.1 hx
  have hy := componentAt_eq_some_iff.1 hy
  have hz := componentAt_eq_some_iff.1 hz
  have hi := componentAt_eq_some_iff.1 hi
  calc q.toBytes
    _ = record.take 4 ++ (record.drop 4).take 4 ++ (record.drop 8).take 4 ++ (record.drop 12).take 4 := by
      rw [Point.toBytes, ← hx, ← hy, ← hz, ← hi]
      rfl
    _ = record.take (4 + 4 + 4 + 4) := by rw [List.take_add, List.take_add, List.take_add]
    _ = record := List.take_of_length_le (Nat.le_of_eq hlength)

/-- Packed records are the bytes of the points that are read off them. -/
theorem flatten_of_points {rs : List (List UInt8)} {qs : List Point}
    (hrs : ∀ r ∈ rs, r.length = packedStride)
    (hall : List.Forall₂ (fun r q => packedOffsets.point? r = some q) rs qs) :
    rs.flatten = qs.flatMap Point.toBytes := by
  induction hall with
  | nil => rfl
  | cons hq _ ih =>
    obtain ⟨hfirst, hrest⟩ := List.forall_mem_cons.1 hrs
    rw [List.flatten_cons, List.flatMap_cons, toBytes_of_point hfirst hq, ih hrest]

/-- The records of a packed cloud, as far as its count goes, are the bytes of its points. -/
theorem take_payload_of_isPacked {ps : List Point} (hpacked : c.isPacked = true)
    (hlong : c.count * c.stride ≤ c.payload.length)
    (hall : List.Forall₂ (fun r q => packedOffsets.point? r = some q)
      (records c.stride c.count c.payload) ps) :
    c.payload.take (c.count * c.stride) = ps.flatMap Point.toBytes := by
  have hlengths : ∀ r ∈ records c.stride c.count c.payload, r.length = packedStride := by
    intro r hr
    rw [length_of_mem_records hlong hr, (isPacked_iff.1 hpacked).1]
  rw [← flatten_records, flatten_of_points hlengths hall]

/-- Reading packed records one after the other is reading each at the offsets of its fields. -/
theorem pointsOf_of_isPacked {ps : List Point} (hpacked : c.isPacked = true)
    (hlong : c.count * c.stride ≤ c.payload.length)
    (hall : List.Forall₂ (fun r q => packedOffsets.point? r = some q)
      (records c.stride c.count c.payload) ps) :
    pointsOf (c.payload.take (c.count * c.stride)) = ps := by
  rw [take_payload_of_isPacked hpacked hlong hall, pointsOf_flatMap]

/-! ## Packing -/

theorem extent_eq_ok_iff : c.extent = .ok n ↔
    (0 < c.stride ∧ c.count * c.stride ≤ c.payload.length) ∧ c.count * c.stride = n := by
  unfold Cloud.extent
  split
  · next hshort =>
    refine iff_of_false nofun ?_
    rintro ⟨⟨hpos, hlong⟩, -⟩
    omega
  · next hlong =>
    rw [Except.ok.injEq]
    refine ⟨fun h => ⟨?_, h⟩, fun h => h.2⟩
    omega

theorem readable_iff : c.Readable ↔
    (0 < c.stride ∧ c.count * c.stride ≤ c.payload.length) ∧ ∃ o, c.Places o := by
  have hintensity : (∃ f ∈ c.fields, f.name = "intensity") ↔ c.field? "intensity" ≠ none := by
    rw [Ne, field?_eq_none_iff]
    simp
  constructor
  · rintro ⟨hpos, hlong, hcoordinates, hlast⟩
    obtain ⟨x, hx⟩ := within_iff.1 (hcoordinates "x" (by simp))
    obtain ⟨y, hy⟩ := within_iff.1 (hcoordinates "y" (by simp))
    obtain ⟨z, hz⟩ := within_iff.1 (hcoordinates "z" (by simp))
    refine ⟨⟨hpos, hlong⟩, ?_⟩
    by_cases hnone : c.field? "intensity" = none
    · exact ⟨⟨x, y, z, none⟩, hx, hy, hz, Or.inr ⟨hnone, rfl⟩⟩
    · obtain ⟨i, hi⟩ := within_iff.1 (hlast (hintensity.2 hnone))
      exact ⟨⟨x, y, z, some i⟩, hx, hy, hz, Or.inl ⟨i, hi, rfl⟩⟩
  · rintro ⟨⟨hpos, hlong⟩, o, hx, hy, hz, hi⟩
    refine ⟨hpos, hlong, ?_, fun hsome => ?_⟩
    · simp only [List.forall_mem_cons]
      exact ⟨within_iff.2 ⟨_, hx⟩, within_iff.2 ⟨_, hy⟩, within_iff.2 ⟨_, hz⟩, nofun⟩
    · rcases hi with ⟨offset, hlies, -⟩ | ⟨hnone, -⟩
      · exact within_iff.2 ⟨offset, hlies⟩
      · exact absurd hnone (hintensity.1 hsome)

theorem flawed_of_extent (h : c.extent = .error fault) : c.Flawed fault := by
  unfold Cloud.extent at h
  split at h
  · next hshort =>
    cases h
    exact .payload hshort
  · exact absurd h nofun

/-- A cloud that is packed already and long enough is taken as it is. -/
theorem packed_of_isPacked (hpacked : c.isPacked = true)
    (hlong : c.count * c.stride ≤ c.payload.length) : c.packed = .ok c := by
  have hextent := extent_eq_ok_iff.2 ⟨⟨stride_pos_of_isPacked hpacked, hlong⟩, rfl⟩
  unfold Cloud.packed
  rw [hextent, hpacked]
  rfl

/-- Any other cloud that can be read is packed from its points. -/
theorem packed_of_places {ps : List Point} (hpacked : c.isPacked = false)
    (hlong : 0 < c.stride ∧ c.count * c.stride ≤ c.payload.length) (ho : c.Places o)
    (hps : pointsAt o (records c.stride c.count c.payload) = .ok ps) :
    c.packed = .ok (ofPoints c.stamp c.frame ps) := by
  have hextent := extent_eq_ok_iff.2 ⟨hlong, rfl⟩
  have hoffsets := offsets_eq_ok_iff.2 ho
  unfold Cloud.packed
  rw [hextent, hpacked, hoffsets]
  change (pointsAt o _ >>= _) = _
  rw [hps]
  rfl

theorem readable_of_packed (h : c.packed = .ok p) : c.Readable := by
  unfold Cloud.packed at h
  obtain ⟨bytes, hextent, h⟩ := bind_eq_ok.1 h
  obtain ⟨hlong, -⟩ := extent_eq_ok_iff.1 hextent
  split at h
  · next hpacked => exact readable_iff.2 ⟨hlong, packedOffsets, places_of_isPacked hpacked⟩
  · obtain ⟨o, ho, -⟩ := bind_eq_ok.1 h
    exact readable_iff.2 ⟨hlong, o, offsets_eq_ok_iff.1 ho⟩

/-- What is wrong with a cloud that cannot be packed. -/
theorem flawed_of_packed (h : c.packed = .error fault) : c.Flawed fault := by
  unfold Cloud.packed at h
  rcases bind_eq_error.1 h with h | ⟨bytes, hextent, h⟩
  · exact flawed_of_extent h
  split at h
  · exact absurd h nofun
  rcases bind_eq_error.1 h with h | ⟨o, ho, h⟩
  · exact flawed_of_offsets h
  obtain ⟨ps, hps, -⟩ := exists_points (extent_eq_ok_iff.1 hextent).1.2 (offsets_eq_ok_iff.1 ho)
  rw [hps] at h
  exact absurd h nofun

/-- A cloud that is packed already and long enough is read at the offsets of its fields. -/
theorem points_of_isPacked {ps : List Point} (hpacked : c.isPacked = true)
    (hlong : c.count * c.stride ≤ c.payload.length)
    (hall : List.Forall₂ (fun r q => packedOffsets.point? r = some q)
      (records c.stride c.count c.payload) ps) : c.points = .ok ps := by
  have hextent := extent_eq_ok_iff.2 ⟨⟨stride_pos_of_isPacked hpacked, hlong⟩, rfl⟩
  unfold Cloud.points
  rw [if_pos hpacked, hextent, ← pointsOf_of_isPacked hpacked hlong hall]
  rfl

theorem isPackedFrom_self (hpacked : c.isPacked = true)
    (hlong : c.count * c.stride ≤ c.payload.length) : c.IsPackedFrom c := by
  obtain ⟨hstride, hfields⟩ := isPacked_iff.1 hpacked
  obtain ⟨ps, -, hlength, hshows, hall⟩ := exists_points hlong (places_of_isPacked hpacked)
  have hread := points_of_isPacked hpacked hlong hall
  exact ⟨rfl, rfl, hstride, hfields, hlong, ⟨ps, hread, hlength, hshows⟩,
    packed_of_isPacked hpacked hlong⟩

theorem isPackedFrom_ofPoints {ps : List Point} (hcount : c.count < 0x100000000)
    (hlength : ps.length = c.count) (hshows : ∀ (i : Nat) (hi : i < ps.length), c.Shows i ps[i]) :
    (ofPoints c.stamp c.frame ps).IsPackedFrom c := by
  have hwhole : ps.length % 0x100000000 = ps.length := Nat.mod_eq_of_lt (hlength ▸ hcount)
  have hlong : (ofPoints c.stamp c.frame ps).count * (ofPoints c.stamp c.frame ps).stride
      ≤ (ofPoints c.stamp c.frame ps).payload.length := by
    change ps.length % 0x100000000 * packedStride ≤ (ps.flatMap Point.toBytes).length
    exact Nat.le_of_eq (by rw [hwhole, length_flatMap_toBytes])
  refine ⟨rfl, hwhole.trans hlength, rfl, rfl, hlong, ⟨ps, ?_, hlength, hshows⟩,
    packed_of_isPacked rfl hlong⟩
  have hpoints := points_ofPoints c.header c.stamp c.frame ps
  rw [hwhole, List.take_length] at hpoints
  exact hpoints

/-- A cloud whose points can be read is brought into the packed layout, on either way. -/
theorem Readable.exists_packed (hread : c.Readable) (hcount : c.count < 0x100000000) :
    ∃ p, c.packed = .ok p ∧ p.IsPackedFrom c := by
  obtain ⟨hlong, o, ho⟩ := readable_iff.1 hread
  cases hpacked : c.isPacked with
  | true => exact ⟨c, packed_of_isPacked hpacked hlong.2, isPackedFrom_self hpacked hlong.2⟩
  | false =>
    obtain ⟨ps, hps, hlength, hshows, -⟩ := exists_points hlong.2 ho
    exact ⟨_, packed_of_places hpacked hlong ho hps, isPackedFrom_ofPoints hcount hlength hshows⟩

/-- A cloud is brought into the packed layout exactly when its points can be read: its records are of
some length, the payload has all of them, and the first field of each coordinate lies within the record,
as does that of the intensity if there is one. Otherwise the fault is what is wrong with the cloud; that
a record is too short is never found out when it is read. The packed cloud has the points that the
records show, bit for bit, and packing it again changes nothing. Lengths and offsets stay within 64-bit
words. -/
theorem packed_exact (hwords : c.Words) :
    ((∃ p, c.packed = .ok p) ↔ c.Readable) ∧
    (∀ fault, c.packed = .error fault → c.Flawed fault ∧ fault ≠ .shortRecord) ∧
    (∀ p, c.packed = .ok p → p.IsPackedFrom c) ∧
    c.count * c.stride < 0x10000000000000000 ∧ ∀ f ∈ c.fields, f.offset + 4 < 0x10000000000000000 := by
  refine ⟨⟨?_, ?_⟩, fun fault h => ?_, fun p h => ?_, ?_, fun f hf => ?_⟩
  · rintro ⟨p, h⟩
    exact readable_of_packed h
  · intro hread
    obtain ⟨p, h, -⟩ := hread.exists_packed hwords.count
    exact ⟨p, h⟩
  · have hflawed := flawed_of_packed h
    refine ⟨hflawed, ?_⟩
    rintro rfl
    exact nomatch hflawed
  · obtain ⟨p', h', hfrom⟩ := (readable_of_packed h).exists_packed hwords.count
    cases h'.symm.trans h
    exact hfrom
  · calc c.count * c.stride
      _ ≤ 0xFFFFFFFF * 0xFFFFFFFF :=
        Nat.mul_le_mul (Nat.le_of_lt_succ hwords.count) (Nat.le_of_lt_succ hwords.stride)
      _ < 0x10000000000000000 := by decide
  · have hoffset := hwords.offsets f hf
    omega

/-- A cloud with overlapping fields out of order, a name twice, one unknown, and a surplus byte. -/
def jumbled : Cloud where
  header := ⟨1.5, "lidar"⟩
  count := 2
  stride := 9
  fields := [⟨"z", 0⟩, ⟨"x", 5⟩, ⟨"ring", 8⟩, ⟨"y", 3⟩, ⟨"x", 0⟩]
  payload := [0, 0, 128, 63, 0, 0, 0, 64, 64, 1, 2, 3, 4, 5, 6, 7, 8, 9, 10]

theorem packed_exact_jumbled : jumbled.Words ∧ ∃ p ps, jumbled.packed = .ok p ∧
    p.points = .ok ps ∧ ps.length = 2 ∧ ∀ (i : Nat) (hi : i < ps.length), jumbled.Shows i ps[i] := by
  have hwords : jumbled.Words := ⟨by decide, by decide, by decide⟩
  have hread : jumbled.Readable := by
    refine ⟨by decide, by decide, ?_, ?_⟩
    · simp only [List.forall_mem_cons]
      exact ⟨⟨⟨"x", 5⟩, by decide⟩, ⟨⟨"y", 3⟩, by decide⟩, ⟨⟨"z", 0⟩, by decide⟩, nofun⟩
    · intro hsome
      exact absurd hsome (by decide)
  obtain ⟨hiff, -, hfrom, -⟩ := packed_exact hwords
  obtain ⟨p, hp⟩ := hiff.2 hread
  obtain ⟨ps, hps, hlength, hshows⟩ := (hfrom p hp).points
  exact ⟨hwords, p, ps, hp, hps, hlength, hshows⟩

end Cloud

end LidarSync
