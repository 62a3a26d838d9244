import Sapling.Proofs.Lines
import Sapling.Source

/-!
# Bytes and positions

A byte of a text stands in the line whose index is the number of line feeds before the byte; in
UTF-8 these are the bytes of value ten, since no other character has such a byte.  Lines start where
the lines before them end.  So a byte is found again from its line and column, and later bytes have
later positions.

## Main definitions

* `utf8` — the bytes of a text.

## Main results

* `lineIndex?_eq_count` — the index of the line in which a byte stands.
* `position?_eq` — its position, counted from the start of the line.
* `Source.positions_of_bytes` — bytes, lines and positions of a source.
-/

namespace Sapling

namespace Text

/-! ### Line feeds among the bytes -/

/-- The bytes of a text in UTF-8. -/
def utf8 (text : List Char) : List UInt8 := text.flatMap String.utf8EncodeChar

theorem utf8_toList (s : String) : utf8 s.toList = s.toUTF8.data.toList := by
  rw [String.toUTF8_eq_toByteArray, ← String.utf8Encode_toList, List.utf8Encode,
    List.toList_data_toByteArray, utf8]

theorem utf8_append (a b : List Char) : utf8 (a ++ b) = utf8 a ++ utf8 b := List.flatMap_append

theorem length_utf8 (text : List Char) : (utf8 text).length = byteLength text := by
  induction text with
  | nil => rfl
  | cons c rest ih =>
    rw [utf8, List.flatMap_cons, List.length_append, String.length_utf8EncodeChar]
    exact congrArg (c.utf8Size + ·) ih

/-- The bytes of characters beyond ASCII are beyond ASCII. -/
theorem le_toNat_of_mem_utf8EncodeChar {c : Char} (h : 127 < c.val.toNat) :
    ∀ b ∈ String.utf8EncodeChar c, 128 ≤ b.toNat := by
  fun_cases String.utf8EncodeChar c with
  | case1 v hv => omega
  | case2 v | case3 v | case4 v =>
    simp only [List.forall_mem_cons, UInt8.toNat_ofNat', List.not_mem_nil, false_implies,
      implies_true, and_true]
    omega

/-- The byte of a line feed is in no other character. -/
theorem count_utf8EncodeChar (c : Char) :
    (String.utf8EncodeChar c).count 10 = if c = '\n' then 1 else 0 := by
  split
  · next h =>
    rw [h]
    decide
  · next h =>
    rw [List.count_eq_zero]
    intro hmem
    by_cases hascii : 127 < c.val.toNat
    · exact absurd (le_toNat_of_mem_utf8EncodeChar hascii _ hmem) (by decide)
    · rw [String.utf8EncodeChar, if_pos (by omega), List.mem_singleton] at hmem
      have hnat := congrArg UInt8.toNat hmem
      rw [UInt8.toNat_ofNat', Nat.mod_eq_of_lt (by omega)] at hnat
      exact h (Char.ext (UInt32.toNat_inj.1 hnat.symm))

/-- There are as many bytes of line feeds as there are line feeds. -/
theorem count_utf8 (text : List Char) : (utf8 text).count 10 = text.count '\n' := by
  induction text with
  | nil => rfl
  | cons c rest ih =>
    have hrest : (utf8 (c :: rest)).count 10
        = (String.utf8EncodeChar c).count 10 + (utf8 rest).count 10 := List.count_append
    rw [hrest, ih, count_utf8EncodeChar, List.count_cons, Nat.add_comm]
    simp only [beq_iff_eq]

/-- No line feed is among the first bytes of a text that has none among its characters. -/
theorem count_take_utf8 {text : List Char} (h : '\n' ∉ text) (n : Nat) :
    ((utf8 text).take n).count 10 = 0 := by
  have hle := (List.take_sublist n (utf8 text)).count_le 10
  rw [count_utf8, List.count_eq_zero.2 h] at hle
  exact Nat.le_zero.1 hle

/-! ### The line of a byte -/

section Stretches

variable {text raw : List Char} {earlier later : List (List Char)} {byte : Nat}

/-- Before a line there is one line feed for each line. -/
theorem count_flatten_earlier (h : rawLines text = earlier ++ raw :: later) :
    earlier.flatten.count '\n' = earlier.length := by
  obtain ⟨ls, rfl, hls⟩ := exists_map_of_rawLines h
  rw [flatten_map_append, count_joinLines hls, List.length_map]

/-- The line feeds before a byte are those of the lines before its line.  If the line has one
itself, that is its last byte. -/
theorem count_take_of_rawLines (h : rawLines text = earlier ++ raw :: later)
    (hlow : byteLength earlier.flatten ≤ byte)
    (hhigh : later ≠ [] → byte < byteLength earlier.flatten + byteLength raw) :
    ((utf8 text).take byte).count 10 = earlier.length := by
  have hbefore : (utf8 earlier.flatten).take byte = utf8 earlier.flatten :=
    List.take_of_length_le (by rwa [length_utf8])
  rw [eq_of_rawLines h, utf8_append, List.take_append, hbefore, List.count_append, count_utf8,
    count_flatten_earlier h, length_utf8]
  refine Nat.add_eq_left.2 ?_
  rcases rawLines_cases h with ⟨l, rfl, hl, hne⟩ | ⟨rfl, hno⟩
  · have hlt := hhigh hne
    have hle : byte - byteLength earlier.flatten ≤ (utf8 l).length := by
      rw [byteLength_append, show byteLength ['\n'] = 1 by decide] at hlt
      rw [length_utf8]
      omega
    rw [List.append_assoc, utf8_append, List.take_append_of_le_length hle]
    exact count_take_utf8 hl _
  · rw [List.flatten_nil, List.append_nil]
    exact count_take_utf8 hno _

end Stretches

/-- **The index of the line in which a byte stands** is the number of line feeds before it. -/
theorem lineIndex?_eq_count (text : List Char) (byte : Nat) :
    lineIndex? text byte
      = if byte ≤ byteLength text then some (((utf8 text).take byte).count 10) else none := by
  split
  · next hsize =>
    obtain ⟨earlier, raw, later, hraw, hlow, hhigh⟩ := exists_rawLines text byte
    rw [lineIndex?_of_rawLines hraw hlow hhigh hsize, count_take_of_rawLines hraw hlow hhigh]
  · next hsize => exact if_neg hsize

theorem eq_count_of_lineIndex? {text : List Char} {byte i : Nat}
    (h : lineIndex? text byte = some i) : i = ((utf8 text).take byte).count 10 := by
  have hcount := lineIndex?_eq_count text byte
  rw [h, if_pos (le_of_lineIndex? h)] at hcount
  exact Option.some.inj hcount

/-- Later bytes do not stand in earlier lines. -/
theorem lineIndex?_mono {text : List Char} {byte byte' i i' : Nat}
    (h : lineIndex? text byte = some i) (h' : lineIndex? text byte' = some i')
    (hle : byte ≤ byte') : i ≤ i' := by
  rw [eq_count_of_lineIndex? h, eq_count_of_lineIndex? h']
  exact (List.take_prefix_take_left hle).sublist.count_le 10

/-- There is one line more than there are line feeds. -/
theorem length_lines (text : List Char) : (lines text).length = text.count '\n' + 1 := by
  obtain ⟨ls, last, rfl, hls, hlast⟩ := exists_joinLines text
  rw [lines, length_linesFrom, rawLines_joinLines hls, rawLines_of_not_mem hlast,
    List.length_append, List.length_map, List.count_append, count_joinLines hls,
    List.count_eq_zero.2 hlast]
  rfl

/-! ### The start of a line -/

/-- **The start of a line stands in that line.**  No line but the last is empty: each has its line
feed. -/
theorem lineIndex?_start {text : List Char} {i : Nat} {line : Line}
    (h : (lines text)[i]? = some line) : lineIndex? text line.start = some i := by
  obtain ⟨earlier, raw, later, hraw, rfl, rfl⟩ := exists_rawLines_of_getElem? h
  refine lineIndex?_of_rawLines hraw (Nat.le_refl _) ?_ ?_
  · intro hne
    rcases rawLines_cases hraw with ⟨l, hl, -, -⟩ | ⟨hnil, -⟩
    · rw [hl, byteLength_append]
      exact Nat.lt_add_of_pos_right (Nat.lt_add_left _ (by decide))
    · exact absurd hnil hne
  · rw [congrArg byteLength (eq_of_rawLines hraw), byteLength_append]
    exact Nat.le_add_right _ _

/-- **The position of a byte** is its line, and its distance from the start of that line. -/
theorem position?_eq {text : List Char} {byte i : Nat} (h : lineIndex? text byte = some i) :
    ∃ line, (lines text)[i]? = some line ∧ line.start ≤ byte ∧
      position? text byte = some (i + 1, byte - line.start + 1) := by
  obtain ⟨line, -, -, hline, -, -, hle⟩ := exists_line_of_lineIndex? h
  refine ⟨line, hline, hle, ?_⟩
  rw [position?, h, Option.bind_some, hline, Option.map_some]

/-- A position is one of a byte in the text, and the byte is found again from it. -/
theorem exists_line_of_position? {text : List Char} {byte : Nat} {p : Nat × Nat}
    (h : position? text byte = some p) : ∃ i line, lineIndex? text byte = some i ∧
      (lines text)[i]? = some line ∧ line.start ≤ byte ∧ p = (i + 1, byte - line.start + 1) := by
  obtain ⟨i, hindex, -⟩ := Option.bind_eq_some_iff.1 h
  obtain ⟨line, hline, hle, hposition⟩ := position?_eq hindex
  exact ⟨i, line, hindex, hline, hle, Option.some.inj (h.symm.trans hposition)⟩

/-- **Later bytes have later positions.**  They stand in a later line, or further to the right in
the same one. -/
theorem position?_lt {text : List Char} {byte byte' : Nat} {p p' : Nat × Nat}
    (h : position? text byte = some p) (h' : position? text byte' = some p') (hlt : byte < byte') :
    Prod.Lex (· < ·) (· < ·) p p' := by
  obtain ⟨i, line, hindex, hline, hle, rfl⟩ := exists_line_of_position? h
  obtain ⟨i', line', hindex', hline', hle', rfl⟩ := exists_line_of_position? h'
  rcases Nat.lt_or_eq_of_le (lineIndex?_mono hindex hindex' (Nat.le_of_lt hlt)) with hbefore | rfl
  · exact .left _ _ (Nat.succ_lt_succ hbefore)
  · obtain rfl : line = line' := Option.some.inj (hline.symm.trans hline')
    exact .right _ (by omega)

end Text

/-! ### Positions in a source -/

namespace Source

open Text

variable {s : Source} {byte line column : Nat}

/-- Just the bytes of the text, and the end of it, have positions. -/
theorem isSome_position?_iff : (s.position? byte).isSome ↔ byte ≤ s.size := by
  constructor
  · intro h
    obtain ⟨p, hp⟩ := Option.isSome_iff_exists.1 h
    obtain ⟨i, -, hindex, -⟩ := exists_line_of_position? hp
    exact le_of_lineIndex? hindex
  · intro hle
    obtain ⟨line, -, -, hposition⟩ :=
      position?_eq ((lineIndex?_eq_count s.chars byte).trans (if_pos hle))
    exact Option.isSome_iff_exists.2 ⟨_, hposition⟩

/-- **A byte is found again from its position.** -/
theorem exists_lineStart_of_position? (h : s.position? byte = some (line, column)) :
    1 ≤ line ∧ line ≤ s.lineCount ∧ 1 ≤ column ∧
      ∃ start, s.lineStart? (line - 1) = some start ∧ start ≤ byte ∧
        start + column - 1 = byte := by
  obtain ⟨i, l, -, hline, hle, hp⟩ := exists_line_of_position? h
  obtain ⟨rfl, rfl⟩ := Prod.mk.inj hp
  have hlt : i < s.lineCount := (List.getElem?_eq_some_iff.1 hline).1
  refine ⟨Nat.succ_pos _, hlt, Nat.succ_pos _, l.start, ?_, hle, by omega⟩
  rw [Nat.add_sub_cancel, lineStart?, lines, hline, Option.map_some]

/-- No two bytes have the same position. -/
theorem eq_of_position? {byte' : Nat} {p : Nat × Nat} (h : s.position? byte = some p)
    (h' : s.position? byte' = some p) : byte = byte' := by
  obtain ⟨-, -, -, start, hstart, -, hbyte⟩ := exists_lineStart_of_position? h
  obtain ⟨-, -, -, start', hstart', -, hbyte'⟩ := exists_lineStart_of_position? h'
  obtain rfl : start = start' := Option.some.inj (hstart.symm.trans hstart')
  exact hbyte.symm.trans hbyte'

/-- **Bytes and positions.**  The line of a byte is the number of line feed bytes before it, and
there is a line more than there are such bytes.  From its line and column, which are counted from
one, a byte is found again, and later bytes have later positions.  Just the lines that there are
have a start, and it stands in them. -/
theorem positions_of_bytes (s : Source) :
    let bytes := s.text.toUTF8.data.toList
    s.size = bytes.length ∧
      (∀ byte, s.lineIndex? byte
        = if byte ≤ bytes.length then some ((bytes.take byte).count 10) else none) ∧
      (∀ byte, (s.position? byte).isSome ↔ byte ≤ bytes.length) ∧
      (∀ byte line column, s.position? byte = some (line, column) →
        1 ≤ line ∧ line ≤ s.lineCount ∧ 1 ≤ column ∧
          ∃ start, s.lineStart? (line - 1) = some start ∧ start ≤ byte ∧
            start + column - 1 = byte) ∧
      (∀ byte byte' p p', s.position? byte = some p → s.position? byte' = some p' →
        (byte < byte' → Prod.Lex (· < ·) (· < ·) p p') ∧ (p = p' → byte = byte')) ∧
      s.lineCount = bytes.count 10 + 1 ∧
      (∀ i, (s.lineStart? i).isSome ↔ i < s.lineCount) ∧
      ∀ i start, s.lineStart? i = some start → s.lineIndex? start = some i := by
  intro bytes
  have hbytes : bytes = utf8 s.chars := (utf8_toList s.text).symm
  have hsize : s.size = bytes.length := by
    rw [hbytes, length_utf8]
    rfl
  refine ⟨hsize, ?_, ?_, fun _ _ _ => exists_lineStart_of_position?, ?_, ?_, ?_, ?_⟩
  · intro byte
    rw [← hsize, hbytes]
    exact lineIndex?_eq_count s.chars byte
  · intro byte
    rw [← hsize]
    exact isSome_position?_iff
  · intro byte byte' p p' h h'
    refine ⟨position?_lt h h', ?_⟩
    rintro rfl
    exact eq_of_position? h h'
  · rw [hbytes, count_utf8]
    exact length_lines s.chars
  · intro i
    rw [lineStart?, Option.isSome_map, isSome_getElem?]
    rfl
  · intro i start h
    obtain ⟨line, hline, rfl⟩ := Option.map_eq_some_iff.1 h
    exact lineIndex?_start hline

end Source

end Sapling
