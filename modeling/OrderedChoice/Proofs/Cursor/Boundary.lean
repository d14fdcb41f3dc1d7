import OrderedChoice.Proofs.Span
import OrderedChoice.Text.Slice

/-!
# Boundaries between characters

A place in a text is an offset in bytes with the characters after it, and nothing in it says that
the bytes at this offset are those of these characters.  Here offsets are held against the bytes of
the text in UTF-8.

* `Position.Spans.isCut`: between two places of a text there is a slice, of the characters between
  them;
* `Position.Reaches.isIn`: the bytes from a place on are those of the characters after it;
* `startsWith_iff` and `firstChar?_eq_head?`: the bytes at the start of a text tell what its first
  characters are.
-/

namespace OrderedChoice

/-- `text` is cut out of the input by two offsets, which are boundaries in it. -/
structure IsCut (input : String) (i j : Nat) (text : String) : Prop where
  le : i ≤ j
  le_size : j ≤ input.utf8ByteSize
  isBoundary_start : IsBoundary input i
  isBoundary_stop : IsBoundary input j
  slice?_eq : slice? input i j = some text

/-- A place of the input: its offset is a boundary, and the text from there on is what is left. -/
def Position.IsIn (p : Position) (input : String) : Prop :=
  IsCut input p.offset input.utf8ByteSize (String.ofList p.rest)

/-! ### Bytes -/

theorem utf8ByteSize_ofList (cs : List Char) :
    (String.ofList cs).utf8ByteSize = byteLength cs := by
  induction cs with
  | nil => rfl
  | cons c cs ih => simp [byteLength, ih, String.ofList_cons, String.utf8ByteSize_append]

theorem extract_between (a b c : ByteArray) :
    (a ++ b ++ c).extract a.size (a.size + b.size) = b := by
  have h := ByteArray.extract_append_size_add (a := a) (b := b ++ c) (i := 0) (j := b.size)
  rw [Nat.add_zero] at h
  rw [ByteArray.append_assoc, h, ByteArray.extract_append_eq_left rfl]

theorem isBoundary_append (a b : String) : IsBoundary (a ++ b) a.utf8ByteSize :=
  String.Pos.Raw.isValid_iff_exists_append.2 ⟨a, b, rfl, rfl⟩

/-- A text that stands between two others is cut out by the sizes of what is before it and of
what is before its end. -/
theorem isCut_append (a b c : String) :
    IsCut (a ++ b ++ c) a.utf8ByteSize (a.utf8ByteSize + b.utf8ByteSize) b := by
  have hi : IsBoundary (a ++ b ++ c) a.utf8ByteSize := by
    rw [String.append_assoc]
    exact isBoundary_append a (b ++ c)
  have hj : IsBoundary (a ++ b ++ c) (a.utf8ByteSize + b.utf8ByteSize) := by
    rw [← String.utf8ByteSize_append]
    exact isBoundary_append (a ++ b) c
  have hbytes := extract_between a.toByteArray b.toByteArray c.toByteArray
  rw [← String.toByteArray_append, ← String.toByteArray_append] at hbytes
  refine ⟨Nat.le_add_right _ _, hj.le_utf8ByteSize, hi, hj, ?_⟩
  rw [slice?, dif_pos ⟨hi, hj, Nat.le_add_right _ _⟩]
  refine congrArg some (String.toByteArray_inj.1 ?_)
  rw [String.Slice.toByteArray_copy, String.startInclusive_slice, String.endExclusive_slice]
  exact hbytes

/-! ### Places -/

namespace Position

variable {input : String} {p q : Position} {cs : List Char}

/-- **Between two places of a text there is a slice**, of the characters between them. -/
theorem Spans.isCut (hp : (start input.toList).Reaches p) (h : p.Spans cs q) :
    IsCut input p.offset q.offset (String.ofList cs) := by
  obtain ⟨before, hbefore⟩ := hp
  have hinput : input = String.ofList before ++ String.ofList cs ++ String.ofList q.rest := by
    rw [← String.ofList_append, ← String.ofList_append, List.append_assoc, ← h.1]
    exact (String.ofList_toList.symm.trans (congrArg _ hbefore.1))
  have hi : p.offset = (String.ofList before).utf8ByteSize := by
    rw [utf8ByteSize_ofList, hbefore.2]
    exact Nat.zero_add _
  have hj : q.offset = (String.ofList before).utf8ByteSize + (String.ofList cs).utf8ByteSize := by
    rw [← hi, utf8ByteSize_ofList, h.2]
  rw [hinput, hi, hj]
  exact isCut_append _ _ _

theorem Reaches.isCut (hp : (start input.toList).Reaches p) (h : p.Reaches q) :
    IsCut input p.offset q.offset (String.ofList (p.textTo q)) := by
  obtain ⟨cs, h⟩ := h
  rw [h.textTo]
  exact h.isCut hp

/-- **The bytes from a place on** are those of the characters after it. -/
theorem Reaches.isIn (h : (start input.toList).Reaches p) : p.IsIn input := by
  obtain ⟨before, hbefore⟩ := h
  let stop : Position := ⟨byteLength input.toList, []⟩
  have hend : p.Spans p.rest stop := by
    refine ⟨(List.append_nil _).symm, ?_⟩
    have hinput : input.toList = before ++ p.rest := hbefore.1
    have hoffset : p.offset = 0 + byteLength before := hbefore.2
    simp only [stop, hinput, byteLength_append, hoffset]
    omega
  have hsize : stop.offset = input.utf8ByteSize := by
    have h := utf8ByteSize_ofList input.toList
    rw [String.ofList_toList] at h
    exact h.symm
  have hcut := hend.isCut ⟨before, hbefore⟩
  rwa [hsize] at hcut

end Position

/-! ### What is at the start of a text -/

/-- **No character is within another one.**  A text whose first bytes are those of a literal begins
with the characters of the literal. -/
theorem startsWith_iff {text rest : String} :
    startsWith text rest = true ↔ text.toList <+: rest.toList := by
  rw [startsWith, decide_eq_true_iff, ← ByteArray.ext_iff]
  refine ⟨fun h => ?_, fun ⟨cs, hcs⟩ => ?_⟩
  · refine List.isPrefix_of_utf8Encode_append_eq_utf8Encode
      (rest.toByteArray.extract text.utf8ByteSize rest.toByteArray.size) ?_
    rw [String.utf8Encode_toList, String.utf8Encode_toList, ← h, ByteArray.extract_append_extract,
      Nat.zero_min, ByteArray.extract_zero_max_size]
  · have hrest : rest = text ++ String.ofList cs := by
      rw [← String.ofList_toList (s := rest), ← hcs, String.ofList_append, String.ofList_toList]
    rw [hrest, String.toByteArray_append]
    exact ByteArray.extract_append_eq_left rfl

theorem firstChar?_eq_head? (rest : String) : firstChar? rest = rest.toList.head? := by
  rw [firstChar?, ← String.utf8Encode_toList]
  cases rest.toList with
  | nil => rfl
  | cons c cs => exact List.utf8DecodeChar?_utf8Encode_cons

end OrderedChoice
