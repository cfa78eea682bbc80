import LidarSync.Cloud.Ply
import LidarSync.Proofs.Cloud.Packed
import LidarSync.Proofs.Sink.Archive

/-!
# Reading the file of a cloud

The file of a cloud is text for a while and then bytes. `Ply.read` takes it line by line until it finds
the end of the header, looks up what the lines say, and keeps the bytes that follow. A character other
than the line feed has no byte of a line feed (`lineFeed_not_mem_utf8EncodeChar`), and no value of the
header has a line feed (`Cloud.plyFields_intact`); so the lines that are read are the lines that were
written (`Ply.linesUpTo_bytes`), and what follows are the records of the points (`Cloud.read_ply`).
-/

namespace LidarSync

/-! ## Reading -/

namespace Ply

/-- The byte at the end of a line. -/
def lineFeed : UInt8 := 10

/-- The lines of a file up to the one that is `last`, without this one, and the bytes that follow it.
`line` is what was read of the line in progress. There is no answer where no line is the last one, and
where a line before it is no text. -/
def linesUpTo (last : String) (line : List UInt8) :
    List UInt8 → Option (List String × List UInt8)
  | [] => none
  | b :: rest =>
    if b = lineFeed then
      match String.fromUTF8? line.toByteArray with
      | none => none
      | some text =>
        if text = last then some ([], rest)
        else (linesUpTo last [] rest).map fun (lines, body) => (text :: lines, body)
    else linesUpTo last (line ++ [b]) rest

/-- What follows a keyword in each line that starts with it. -/
def values (keyword : String) (lines : List String) : List String :=
  lines.filterMap fun line => (keyword.toList.isPrefixOf? line.toList).map String.ofList

/-- What the only line with a keyword says. -/
def value? (keyword : String) (lines : List String) : Option String :=
  match values keyword lines with
  | [value] => some value
  | _ => none

/-- The number whose digits a text consists of. -/
def number? (text : String) : Option Nat :=
  if text.toList ≠ [] ∧ text.toList.all Char.isDigit then some (Nat.ofDigitChars 10 text.toList 0)
  else none

/-- What the file of a cloud says. -/
structure Contents where
  frame : String
  /-- The text of the stamp. -/
  stamp : String
  count : Nat
  /-- The names of the properties that are floats, in order. -/
  properties : List String
  body : List UInt8

/-- Reads the file of a cloud. -/
def read (bytes : List UInt8) : Option Contents := do
  let (lines, body) ← linesUpTo "end_header" [] bytes
  let frame ← value? "comment frame_id " lines
  let stamp ← value? "comment stamp " lines
  let vertices ← value? "element vertex " lines
  let count ← number? vertices
  return ⟨frame, stamp, count, values "property float " lines, body⟩

end Ply

/-! ## The bytes of a text -/

theorem toList_loop (bytes : ByteArray) (i : Nat) (acc : List UInt8) :
    ByteArray.toList.loop bytes i acc = acc.reverse ++ bytes.data.toList.drop i := by
  fun_induction ByteArray.toList.loop bytes i acc with
  | case1 i acc h ih =>
    have hi : i < bytes.data.toList.length := h
    have hget : bytes.get! i = bytes.data.toList[i] := getElem!_pos bytes.data i h
    rw [ih, hget, List.reverse_cons, List.append_assoc, List.singleton_append,
      ← List.drop_eq_getElem_cons hi]
  | case2 i acc h =>
    have hi : bytes.data.toList.length ≤ i := Nat.not_lt.1 h
    rw [List.drop_eq_nil_of_le hi, List.append_nil]

theorem toList_toByteArray (bytes : List UInt8) : bytes.toByteArray.toList = bytes := by
  unfold ByteArray.toList
  rw [toList_loop, List.toList_data_toByteArray]
  rfl

theorem toByteArray_toList (bytes : ByteArray) : bytes.toList.toByteArray = bytes := by
  unfold ByteArray.toList
  rw [toList_loop]
  apply ByteArray.ext
  rw [List.data_toByteArray]
  rfl

/-- The bytes of a text, character by character. -/
theorem toList_toUTF8 (s : String) : s.toUTF8.toList = s.toList.flatMap String.utf8EncodeChar := by
  rw [String.toUTF8_eq_toByteArray]
  conv_lhs => rw [← String.ofList_toList (s := s)]
  rw [String.toByteArray_ofList]
  exact toList_toByteArray _

theorem toList_toUTF8_append (s t : String) :
    (s ++ t).toUTF8.toList = s.toUTF8.toList ++ t.toUTF8.toList := by
  rw [toList_toUTF8, toList_toUTF8, toList_toUTF8, String.toList_append, List.flatMap_append]

/-- A text is read back from its bytes. -/
theorem fromUTF8?_toUTF8 (s : String) : String.fromUTF8? s.toUTF8.toList.toByteArray = some s := by
  rw [toByteArray_toList, String.toUTF8_eq_toByteArray]
  unfold String.fromUTF8?
  rw [dif_pos s.isValidUTF8]
  rfl

/-- Only a line feed has the byte of a line feed: the other characters of one byte have their own code,
and all bytes of longer ones are large. -/
theorem lineFeed_not_mem_utf8EncodeChar {c : Char} (hc : c ≠ '\n') :
    Ply.lineFeed ∉ String.utf8EncodeChar c := by
  have hval : c.val.toNat ≠ 10 := fun h => hc (Char.ext (UInt32.toNat_inj.1 h))
  have hlarge : ∀ n : Nat, n % 256 ≠ 10 → Ply.lineFeed ≠ UInt8.ofNat n := by
    intro n hn heq
    have hnat := congrArg UInt8.toNat heq
    rw [UInt8.toNat_ofNat'] at hnat
    exact hn hnat.symm
  unfold String.utf8EncodeChar
  dsimp only
  split
  · rw [List.mem_singleton]
    exact hlarge _ (by omega)
  · split
    · simp only [List.mem_cons, List.not_mem_nil, or_false, not_or]
      exact ⟨hlarge _ (by omega), hlarge _ (by omega)⟩
    · split
      · simp only [List.mem_cons, List.not_mem_nil, or_false, not_or]
        exact ⟨hlarge _ (by omega), hlarge _ (by omega), hlarge _ (by omega)⟩
      · simp only [List.mem_cons, List.not_mem_nil, or_false, not_or]
        exact ⟨hlarge _ (by omega), hlarge _ (by omega), hlarge _ (by omega), hlarge _ (by omega)⟩

theorem lineFeed_not_mem_toUTF8 {s : String} (hs : '\n' ∉ s.toList) :
    Ply.lineFeed ∉ s.toUTF8.toList := by
  rw [toList_toUTF8, List.mem_flatMap]
  rintro ⟨c, hc, hbyte⟩
  exact lineFeed_not_mem_utf8EncodeChar (fun heq => hs (heq ▸ hc)) hbyte

/-! ## Lines -/

namespace Ply

variable {last : String} {lines : List String}

theorem linesUpTo_append {bytes : List UInt8} (hbytes : lineFeed ∉ bytes) (last : String)
    (line rest : List UInt8) :
    linesUpTo last line (bytes ++ rest) = linesUpTo last (line ++ bytes) rest := by
  induction bytes generalizing line with
  | nil => rw [List.nil_append, List.append_nil]
  | cons b bytes ih =>
    obtain ⟨hb, hrest⟩ := not_or.1 (mt List.mem_cons.2 hbytes)
    rw [List.cons_append, linesUpTo, if_neg (Ne.symm hb), ih hrest, List.append_assoc,
      List.singleton_append]

/-- A whole line is read at once. -/
theorem linesUpTo_line {text : String} (htext : '\n' ∉ text.toList) (last : String)
    (rest : List UInt8) :
    linesUpTo last [] ((text ++ "\n").toUTF8.toList ++ rest)
      = if text = last then some ([], rest)
        else (linesUpTo last [] rest).map fun (lines, body) => (text :: lines, body) := by
  have hfeed : "\n".toUTF8.toList = [lineFeed] := by
    rw [toList_toUTF8]
    rfl
  rw [toList_toUTF8_append, hfeed, List.append_assoc,
    linesUpTo_append (lineFeed_not_mem_toUTF8 htext), List.nil_append, List.singleton_append,
    linesUpTo, if_pos rfl, fromUTF8?_toUTF8]

/-- Of the lines of a file, those before the last one are read, and what follows is left. -/
theorem linesUpTo_bytes (hlines : ∀ text ∈ lines, '\n' ∉ text.toList ∧ text ≠ last)
    (hlast : '\n' ∉ last.toList) (body : List UInt8) :
    linesUpTo last []
      ((String.join ((lines ++ [last]).map (· ++ "\n"))).toUTF8.toList ++ body)
        = some (lines, body) := by
  induction lines with
  | nil =>
    rw [List.nil_append, List.map_singleton, String.join_cons, String.join_nil, String.append_empty,
      linesUpTo_line hlast, if_pos rfl]
  | cons text lines ih =>
    obtain ⟨htext, hne⟩ := hlines text List.mem_cons_self
    rw [List.cons_append, List.map_cons, String.join_cons, toList_toUTF8_append, List.append_assoc,
      linesUpTo_line htext, if_neg hne, ih fun t ht => hlines t (List.mem_cons_of_mem text ht)]
    rfl

end Ply

/-! ## The header -/

namespace Decimal

theorem not_mem_zeros {c : Char} (hc : c.isDigit = false) (n : Nat) : c ∉ (zeros n).toList := by
  unfold zeros
  rw [String.toList_ofList, List.mem_replicate]
  rintro ⟨-, rfl⟩
  exact absurd hc nofun

/-- A number with a point has no other character than digits and the point. -/
theorem not_mem_pointed {c : Char} (hc : c.isDigit = false) (hpoint : c ≠ '.')
    (coefficient places : Nat) : c ∉ (pointed coefficient places).toList := by
  have hnumber : ∀ n : Nat, c ∉ (toString n).toList := not_mem_toList_repr hc
  unfold pointed
  split
  · exact hnumber coefficient
  · simp only [String.toList_append, List.mem_append, not_or]
    refine ⟨⟨⟨hnumber _, ?_⟩, not_mem_zeros hc _⟩, hnumber _⟩
    exact fun hmem => hpoint (List.mem_singleton.1 hmem)

theorem newline_not_mem_text (d : Decimal) : '\n' ∉ (text .plain d).toList := by
  change '\n' ∉ (positionalText .plain d).toList
  unfold positionalText
  split
  · change '\n' ∉ (toString (d.coefficient * tenTo d.exponent.toNat) ++ "").toList
    rw [String.append_empty]
    exact not_mem_toList_repr (by decide) _
  · exact not_mem_pointed (by decide) (by decide) _ _

/-- A number is written on one line. -/
theorem newline_not_mem_double (x : Float) : '\n' ∉ (Layout.plain.double x).toList := by
  unfold Layout.double Layout.word
  split
  · decide
  · split <;> decide
  · next negative v _ =>
    unfold signed
    split
    · rw [String.toList_append, List.mem_append, not_or]
      exact ⟨by decide, newline_not_mem_text _⟩
    · exact newline_not_mem_text _

end Decimal

namespace Ply

variable {keyword k : String}

theorem number?_repr (n : Nat) : number? n.repr = some n := by
  unfold number?
  rw [Nat.toList_repr, if_pos, Nat.ofDigitChars_ten_toDigits]
  refine ⟨Nat.toDigits_ne_nil, List.all_eq_true.2 fun c hc => ?_⟩
  exact Nat.isDigit_of_mem_toDigits (by decide) (by decide) hc

/-- Neither of two keywords starts with the other. -/
def Apart (keyword k : String) : Prop :=
  ¬ keyword.toList <+: k.toList ∧ ¬ k.toList <+: keyword.toList

instance (keyword k : String) : Decidable (Apart keyword k) := inferInstanceAs (Decidable (_ ∧ _))

theorem strip_same (keyword value : String) :
    (keyword.toList.isPrefixOf? (keyword ++ value).toList).map String.ofList = some value := by
  have hvalue : keyword.toList.isPrefixOf? (keyword ++ value).toList = some value.toList := by
    rw [List.isPrefixOf?_eq_some_iff_append_eq, String.toList_append]
  rw [hvalue, Option.map_some, String.ofList_toList]

theorem strip_apart (h : Apart keyword k) (value : String) :
    keyword.toList.isPrefixOf? (k ++ value).toList = none := by
  rw [Option.eq_none_iff_forall_not_mem]
  intro rest hrest
  rw [Option.mem_def, List.isPrefixOf?_eq_some_iff_append_eq, String.toList_append] at hrest
  have hkeyword : keyword.toList <+: k.toList ++ value.toList := ⟨rest, hrest⟩
  -- Both stand at the start of the line, so the shorter one stands at the start of the longer one.
  rcases List.prefix_or_prefix_of_prefix hkeyword ⟨value.toList, rfl⟩ with hstart | hstart
  · exact h.1 hstart
  · exact h.2 hstart

/-- Of lines that start with different keywords, those with one of these are found. -/
theorem values_entries {entries : List (String × String)}
    (h : ∀ k ∈ entries.map Prod.fst, k = keyword ∨ Apart keyword k) :
    values keyword (entries.map fun (k, value) => k ++ value)
      = (entries.filter (·.1 = keyword)).map Prod.snd := by
  unfold values
  induction entries with
  | nil => rfl
  | cons p entries ih =>
    obtain ⟨k, value⟩ := p
    have hrest := ih fun k' hk' => h k' (List.mem_cons_of_mem k hk')
    rw [List.map_cons, List.filterMap_cons]
    rcases h k List.mem_cons_self with rfl | hapart
    · rw [strip_same, hrest, List.filter_cons_of_pos (by simp), List.map_cons]
    · have hne : k ≠ keyword := by
        rintro rfl
        exact hapart.1 List.prefix_rfl
      rw [strip_apart hapart, Option.map_none, hrest, List.filter_cons_of_neg (by simpa using hne)]

/-- The keywords of the lines of a header. -/
def keywords : List String :=
  ["ply", "format binary_little_endian 1.0", "comment frame_id ", "comment stamp ",
    "element vertex ", "property float ", "property float ", "property float ", "property float "]

end Ply

namespace Cloud

variable {c : Cloud}

/-- What the lines of a header say after their keywords. -/
def plyValues (c : Cloud) : List String :=
  ["", "", c.frame, Decimal.Layout.plain.double c.stamp, toString c.count, "x", "y", "z", "intensity"]

def plyEntries (c : Cloud) : List (String × String) := Ply.keywords.zip c.plyValues

/-- The lines of a header before its end. -/
def plyFields (c : Cloud) : List String := c.plyEntries.map fun (k, value) => k ++ value

theorem plyLines_eq (c : Cloud) : c.plyLines = c.plyFields ++ ["end_header"] := rfl

theorem newline_not_mem_plyValues (hframe : '\n' ∉ c.frame.toList) :
    ∀ value ∈ c.plyValues, '\n' ∉ value.toList := by
  have hstamp := Decimal.newline_not_mem_double c.stamp
  have hcount : '\n' ∉ (toString c.count).toList := not_mem_toList_repr (by decide) c.count
  unfold plyValues
  simp only [List.forall_mem_cons]
  exact ⟨by decide, by decide, hframe, hstamp, hcount, by decide, by decide, by decide, by decide,
    nofun⟩

/-- No line of a header is interrupted or ends the header too early. -/
theorem plyFields_intact (hframe : '\n' ∉ c.frame.toList) :
    ∀ text ∈ c.plyFields, '\n' ∉ text.toList ∧ text ≠ "end_header" := by
  have hkeywords : ∀ k ∈ Ply.keywords, '\n' ∉ k.toList ∧ ¬ k.toList <+: "end_header".toList := by
    decide
  intro text htext
  obtain ⟨p, hp, rfl⟩ := List.mem_map.1 htext
  obtain ⟨hk, hvalue⟩ := List.of_mem_zip hp
  obtain ⟨hkeyword, hend⟩ := hkeywords p.1 hk
  constructor
  · rw [String.toList_append, List.mem_append, not_or]
    exact ⟨hkeyword, newline_not_mem_plyValues hframe p.2 hvalue⟩
  · intro heq
    apply hend
    rw [← heq, String.toList_append]
    exact ⟨p.2.toList, rfl⟩

theorem values_plyFields {keyword : String}
    (h : ∀ k ∈ Ply.keywords, k = keyword ∨ Ply.Apart keyword k) :
    Ply.values keyword c.plyFields = (c.plyEntries.filter (·.1 = keyword)).map Prod.snd :=
  Ply.values_entries h

theorem value?_plyFields {keyword value : String}
    (h : ∀ k ∈ Ply.keywords, k = keyword ∨ Ply.Apart keyword k)
    (hvalue : (c.plyEntries.filter (·.1 = keyword)).map Prod.snd = [value]) :
    Ply.value? keyword c.plyFields = some value := by
  unfold Ply.value?
  rw [values_plyFields h, hvalue]

/-- What a reader makes of the header, with any bytes behind it. -/
theorem read_header (hframe : '\n' ∉ c.frame.toList) (body : List UInt8) :
    Ply.read (c.plyHeader.toUTF8.toList ++ body) = some
      { frame := c.frame
        stamp := Decimal.Layout.plain.double c.stamp
        count := c.count
        properties := ["x", "y", "z", "intensity"]
        body } := by
  have hlines : Ply.linesUpTo "end_header" [] (c.plyHeader.toUTF8.toList ++ body)
      = some (c.plyFields, body) := by
    unfold plyHeader
    rw [plyLines_eq]
    exact Ply.linesUpTo_bytes (plyFields_intact hframe) (by decide) body
  have hname : Ply.value? "comment frame_id " c.plyFields = some c.frame :=
    value?_plyFields (by decide) rfl
  have hstamp : Ply.value? "comment stamp " c.plyFields
      = some (Decimal.Layout.plain.double c.stamp) := value?_plyFields (by decide) rfl
  have hcount : Ply.value? "element vertex " c.plyFields = some c.count.repr :=
    value?_plyFields (by decide) rfl
  have hproperties : Ply.values "property float " c.plyFields = ["x", "y", "z", "intensity"] := by
    rw [values_plyFields (by decide)]
    rfl
  unfold Ply.read
  simp only [hlines, hname, hstamp, hcount, hproperties, Option.bind_eq_bind, Option.bind_some,
    Ply.number?_repr]
  rfl

/-! ## The whole file -/

/-- A packed cloud whose payload has all records, and whose frame is on one line, is read back from its
file. The lines up to the end of the header name its frame, the text of its stamp, how many points it
has and their four properties in order. What follows are the records of the points and nothing else,
whatever more the payload has, and they are read as the points of the cloud. -/
theorem read_ply (hpacked : c.isPacked = true) (hlong : 16 * c.count ≤ c.payload.length)
    (hframe : '\n' ∉ c.frame.toList) :
    ∃ body ps,
      Ply.read c.ply = some
        { frame := c.frame
          stamp := Decimal.Layout.plain.double c.stamp
          count := c.count
          properties := ["x", "y", "z", "intensity"]
          body } ∧
      body = c.payload.take (16 * c.count) ∧ body.length = 16 * c.count ∧
      c.points = .ok ps ∧ ps.length = c.count ∧ pointsOf body = ps ∧
      ∀ surplus, ply { c with payload := body ++ surplus } = c.ply := by
  obtain ⟨hstride, -⟩ := isPacked_iff.1 hpacked
  have hextent : c.count * c.stride = 16 * c.count := by
    rw [hstride, packedStride, Nat.mul_comm]
  have hbody : c.plyBody = c.payload.take (16 * c.count) := by
    unfold plyBody
    rw [hextent]
  have hlength : c.plyBody.length = 16 * c.count := by
    rw [hbody, List.length_take, Nat.min_eq_left hlong]
  have hfits : c.count * c.stride ≤ c.payload.length := hextent ▸ hlong
  obtain ⟨ps, -, hcount, -, hall⟩ := exists_points hfits (places_of_isPacked hpacked)
  have hpoints : c.points = .ok ps := by
    unfold points
    rw [if_pos hpacked, extent_eq_ok_iff.2 ⟨⟨stride_pos_of_isPacked hpacked, hfits⟩, rfl⟩,
      ← pointsOf_of_isPacked hpacked hfits hall]
    rfl
  refine ⟨c.plyBody, ps, read_header hframe c.plyBody, hbody, hlength, hpoints, hcount,
    pointsOf_plyBody hpoints, fun surplus => ?_⟩
  have hwritten : (c.plyBody ++ surplus).take (c.count * c.stride) = c.plyBody := by
    rw [hextent, ← hlength, List.take_left]
  change c.plyHeader.toUTF8.toList ++ (c.plyBody ++ surplus).take (c.count * c.stride) = c.ply
  rw [hwritten]
  rfl

/-- A cloud in a frame whose name looks like a header, with three bytes too many. -/
def overlong : Cloud :=
  let c := ofPoints 0 "end_header ply" [⟨.zero, .zero, .zero, .zero⟩]
  { c with payload := c.payload ++ [10, 0, 10] }

theorem read_ply_overlong :
    overlong.isPacked = true ∧ 16 * overlong.count ≤ overlong.payload.length ∧
    '\n' ∉ overlong.frame.toList ∧
    ∃ body ps, Ply.read overlong.ply = some
        { frame := "end_header ply"
          stamp := Decimal.Layout.plain.double 0
          count := 1
          properties := ["x", "y", "z", "intensity"]
          body } ∧
      overlong.points = .ok ps ∧ ps.length = 1 ∧ pointsOf body = ps := by
  have hpacked : overlong.isPacked = true := by rfl
  have hlong : 16 * overlong.count ≤ overlong.payload.length := by decide
  have hframe : '\n' ∉ overlong.frame.toList := by decide
  obtain ⟨body, ps, hread, -, -, hpoints, hcount, hbody, -⟩ := read_ply hpacked hlong hframe
  exact ⟨hpacked, hlong, hframe, body, ps, hread, hpoints, hcount, hbody⟩

end Cloud

end LidarSync
