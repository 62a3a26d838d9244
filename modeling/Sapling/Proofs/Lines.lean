import Sapling.Text.Lines

/-!
# Where the lines of a text are

A text is cut into lines at its line feeds: lines that each end with a line feed, and a last line
without one.  So the line in which a byte stands is found by counting the line feeds before it.

## Main definitions

* `joinLines` — lines one after the other, each with a line feed at its end.
* `Line.EndsAt feed` — how a line ends, if it has a line feed or none.

## Main results

* `rawLines_joinLines` — joined lines are cut apart again.
* `exists_line` — the line at a seam of a text: its index, where it starts, and what it shows.
* `exists_rawLines`, `lineIndex?_of_rawLines` — the line in which a byte stands, with the lines
  before it and after it.
* `rawLines_cases`, `endsAt_ofRaw_feed`, `endsAt_ofRaw_last` — how lines end.
* `exists_parts_of_lineIndex?` — the line of any offset, which need not be at a seam.
-/

namespace Sapling.Text

/-- Lines one after the other, each with a line feed at its end. -/
def joinLines (ls : List (List Char)) : List Char := ls.flatMap fun l => l ++ ['\n']

@[simp] theorem joinLines_nil : joinLines [] = [] := rfl

@[simp] theorem joinLines_cons (l : List Char) (ls : List (List Char)) :
    joinLines (l :: ls) = l ++ '\n' :: joinLines ls := by
  simp [joinLines]

theorem flatten_map_append (ls : List (List Char)) :
    (ls.map (· ++ ['\n'])).flatten = joinLines ls := by
  rw [joinLines, List.flatMap_def]

/-- Every text is lines with line feeds, and a last line without one. -/
theorem exists_joinLines : ∀ text : List Char, ∃ ls last,
    text = joinLines ls ++ last ∧ (∀ l ∈ ls, '\n' ∉ l) ∧ '\n' ∉ last := by
  intro text
  induction text with
  | nil => exact ⟨[], [], rfl, by simp, by simp⟩
  | cons c rest ih =>
    obtain ⟨ls, last, rfl, hls, hlast⟩ := ih
    by_cases hc : c = '\n'
    · exact ⟨[] :: ls, last, by simp [hc], by simpa using hls, hlast⟩
    · cases ls with
      | nil => exact ⟨[], c :: last, by simp, by simp, by simpa [hlast] using Ne.symm hc⟩
      | cons l ls =>
        refine ⟨(c :: l) :: ls, last, by simp, ?_, hlast⟩
        obtain ⟨hl, hls⟩ := List.forall_mem_cons.1 hls
        exact List.forall_mem_cons.2 ⟨by simpa [hl] using Ne.symm hc, hls⟩

/-- Each joined line has one line feed. -/
theorem count_joinLines {ls : List (List Char)} (hls : ∀ l ∈ ls, '\n' ∉ l) :
    (joinLines ls).count '\n' = ls.length := by
  induction ls with
  | nil => rfl
  | cons l ls ih =>
    obtain ⟨hl, hls⟩ := List.forall_mem_cons.1 hls
    rw [joinLines_cons, List.count_append, List.count_cons_self, ih hls, List.count_eq_zero.2 hl,
      Nat.zero_add, List.length_cons]

/-! ### Cutting -/

theorem rawLines_of_not_mem {l : List Char} (hl : '\n' ∉ l) : rawLines l = [l] := by
  induction l with
  | nil => rfl
  | cons c l ih =>
    have hc : c ≠ '\n' := fun h => hl (h ▸ List.mem_cons_self)
    rw [rawLines, if_neg hc, ih fun h => hl (List.mem_cons_of_mem _ h), consFirst]

theorem rawLines_append {l : List Char} (hl : '\n' ∉ l) (rest : List Char) :
    rawLines (l ++ '\n' :: rest) = (l ++ ['\n']) :: rawLines rest := by
  induction l with
  | nil => rfl
  | cons c l ih =>
    have hc : c ≠ '\n' := fun h => hl (h ▸ List.mem_cons_self)
    rw [List.cons_append, rawLines, if_neg hc, ih fun h => hl (List.mem_cons_of_mem _ h), consFirst,
      List.cons_append]

/-- **Joined lines are cut apart again.** -/
theorem rawLines_joinLines {ls : List (List Char)} (hls : ∀ l ∈ ls, '\n' ∉ l) (rest : List Char) :
    rawLines (joinLines ls ++ rest) = ls.map (· ++ ['\n']) ++ rawLines rest := by
  induction ls with
  | nil => rfl
  | cons l ls ih =>
    obtain ⟨hl, hls⟩ := List.forall_mem_cons.1 hls
    rw [joinLines_cons, List.append_assoc, List.cons_append, rawLines_append hl, ih hls,
      List.map_cons, List.cons_append]

/-- A line that was begun goes on up to its line feed, or to the end of the text. -/
theorem exists_rawLines_append {l : List Char} (hl : '\n' ∉ l) (rest : List Char) :
    ∃ first more, rawLines (l ++ rest) = (l ++ first) :: more ∧ (more ≠ [] → first ≠ []) := by
  obtain ⟨ls, last, rfl, hls, hlast⟩ := exists_joinLines rest
  cases ls with
  | nil =>
    have hno : '\n' ∉ l ++ last := by simp [hl, hlast]
    exact ⟨last, [], rawLines_of_not_mem hno, by simp⟩
  | cons next ls =>
    have hno : '\n' ∉ l ++ next := by simp [hl, hls next (by simp)]
    refine ⟨next ++ ['\n'], rawLines (joinLines ls ++ last), ?_, by simp⟩
    rw [joinLines_cons, List.append_assoc, List.cons_append, ← List.append_assoc,
      rawLines_append hno, List.append_assoc]

/-! ### Lines and their places -/

theorem linesFrom_append (start : Nat) (xs ys : List (List Char)) :
    linesFrom start (xs ++ ys)
      = linesFrom start xs ++ linesFrom (start + byteLength xs.flatten) ys := by
  induction xs generalizing start with
  | nil => simp [linesFrom]
  | cons x xs ih => simp [linesFrom, ih, Nat.add_assoc]

@[simp] theorem length_linesFrom (start : Nat) (xs : List (List Char)) :
    (linesFrom start xs).length = xs.length := by
  induction xs generalizing start with
  | nil => rfl
  | cons x xs ih => simp [linesFrom, ih]

theorem mem_linesFrom {start : Nat} {xs : List (List Char)} {line : Line}
    (h : line ∈ linesFrom start xs) :
    start ≤ line.start ∧ line.start ≤ start + byteLength xs.flatten := by
  induction xs generalizing start with
  | nil => cases h
  | cons x xs ih =>
    rw [List.flatten_cons, byteLength_append]
    rcases List.mem_cons.1 h with rfl | h
    · exact ⟨Nat.le_refl _, Nat.le_add_right _ _⟩
    · have := ih h
      omega

theorem exists_ofRaw_of_mem {start : Nat} {xs : List (List Char)} {line : Line}
    (h : line ∈ linesFrom start xs) : ∃ start', ∃ raw ∈ xs, line = .ofRaw start' raw := by
  induction xs generalizing start with
  | nil => cases h
  | cons x xs ih =>
    rcases List.mem_cons.1 h with rfl | h
    · exact ⟨start, x, List.mem_cons_self, rfl⟩
    · obtain ⟨start', raw, hraw, rfl⟩ := ih h
      exact ⟨start', raw, List.mem_cons_of_mem _ hraw, rfl⟩

/-- What a line shows is a part of the text. -/
theorem mem_of_mem_content {text : List Char} {line : Line} (hline : line ∈ lines text) :
    ∀ c ∈ line.content, c ∈ text := by
  intro c hc
  obtain ⟨start, raw, hraw, rfl⟩ := exists_ofRaw_of_mem hline
  have hmem : c ∈ raw := by
    rw [← content_append_ending start raw]
    exact List.mem_append_left _ hc
  rw [← flatten_rawLines text]
  exact List.mem_flatten.2 ⟨raw, hraw, hmem⟩

/-- What is dropped at the end of a text is not an initial part that ends with something else. -/
theorem exists_dropFinal_append {final : Char} {a : List Char} (ha : a.getLast? ≠ some final)
    (b : List Char) : ∃ b', dropFinal final (a ++ b) = a ++ b' := by
  unfold dropFinal
  split
  · next h =>
    rcases List.eq_nil_or_concat b with rfl | ⟨b', d, rfl⟩
    · rw [List.append_nil] at h
      exact absurd h ha
    · exact ⟨b', by simp⟩
  · exact ⟨b, rfl⟩

/-- The content of a line goes on over an initial part that does not end with the line. -/
theorem exists_content_append {a : List Char} (start : Nat) (hfeed : a.getLast? ≠ some '\n')
    (hreturn : a.getLast? ≠ some '\r') (b : List Char) :
    ∃ b', (Line.ofRaw start (a ++ b)).content = a ++ b' := by
  obtain ⟨b', hb'⟩ := exists_dropFinal_append hfeed b
  obtain ⟨b'', hb''⟩ := exists_dropFinal_append hreturn b'
  exact ⟨b'', by rw [Line.ofRaw, hb', hb'']⟩

section Stretches

variable {text raw : List Char} {earlier later : List (List Char)} {byte : Nat}

/-- A text is the lines before one of its lines, this line, and the lines after it. -/
theorem eq_of_rawLines (h : rawLines text = earlier ++ raw :: later) :
    text = earlier.flatten ++ (raw ++ later.flatten) := by
  rw [← flatten_rawLines text, h, List.flatten_append, List.flatten_cons]

/-- A line starts after the lines before it. -/
theorem lines_of_rawLines (h : rawLines text = earlier ++ raw :: later) :
    lines text = linesFrom 0 earlier ++ Line.ofRaw (byteLength earlier.flatten) raw ::
      linesFrom (byteLength earlier.flatten + byteLength raw) later := by
  rw [lines, h, linesFrom_append, Nat.zero_add, linesFrom]

theorem getElem?_lines_of_rawLines (h : rawLines text = earlier ++ raw :: later) :
    (lines text)[earlier.length]? = some (Line.ofRaw (byteLength earlier.flatten) raw) := by
  rw [lines_of_rawLines h, List.getElem?_append_right (by simp)]
  simp

/-- The lines before a line, that line, and the lines after it. -/
theorem exists_rawLines_of_getElem? {i : Nat} {line : Line} (h : (lines text)[i]? = some line) :
    ∃ earlier raw later, rawLines text = earlier ++ raw :: later ∧ earlier.length = i ∧
      line = Line.ofRaw (byteLength earlier.flatten) raw := by
  have hlt : i < (rawLines text).length := by
    rw [← length_linesFrom 0]
    exact (List.getElem?_eq_some_iff.1 h).1
  have hraw : rawLines text = (rawLines text).take i ++ (rawLines text)[i] ::
      (rawLines text).drop (i + 1) := by
    rw [← List.drop_eq_getElem_cons, List.take_append_drop]
  have hlength : ((rawLines text).take i).length = i := List.length_take_of_le (Nat.le_of_lt hlt)
  have hline := getElem?_lines_of_rawLines hraw
  rw [hlength, h] at hline
  exact ⟨_, _, _, hraw, hlength, Option.some.inj hline⟩

/-- Lines that start at or before a byte are counted, if these are an initial part of the lines. -/
theorem countP_start_le {earlier later : List Line} {line : Line} {byte : Nat}
    (hearlier : ∀ l ∈ earlier, l.start ≤ byte) (hline : line.start ≤ byte)
    (hlater : ∀ l ∈ later, byte < l.start) :
    (earlier ++ line :: later).tail.countP (·.start ≤ byte) = earlier.length := by
  have hnone : later.countP (·.start ≤ byte) = 0 := by
    rw [List.countP_eq_zero]
    intro l hl
    have := hlater l hl
    simpa using this
  cases earlier with
  | nil => exact hnone
  | cons first earlier =>
    have hall : earlier.countP (·.start ≤ byte) = earlier.length := by
      rw [List.countP_eq_length]
      intro l hl
      simpa using hearlier l (List.mem_cons_of_mem _ hl)
    rw [List.cons_append, List.tail_cons, List.countP_append, hall,
      List.countP_cons_of_pos (by simpa using hline), hnone, List.length_cons]

/-- **The index of the line in which a byte stands** is the number of lines before it.  The byte
stands before the next line, or, in the last line, nowhere beyond the text. -/
theorem lineIndex?_of_rawLines (h : rawLines text = earlier ++ raw :: later)
    (hlow : byteLength earlier.flatten ≤ byte)
    (hhigh : later ≠ [] → byte < byteLength earlier.flatten + byteLength raw)
    (hsize : byte ≤ byteLength text) : lineIndex? text byte = some earlier.length := by
  rw [lineIndex?, if_pos hsize, lines_of_rawLines h, countP_start_le, length_linesFrom]
  · intro line hline
    have := (mem_linesFrom hline).2
    omega
  · exact hlow
  · intro line hline
    have hstart := (mem_linesFrom hline).1
    have hne : later ≠ [] := by
      rintro rfl
      cases hline
    exact Nat.lt_of_lt_of_le (hhigh hne) hstart

end Stretches

/-- The last character of a text is one of its last part, if that is not empty. -/
theorem mem_of_getLast?_append {a b : List Char} (hb : b ≠ []) {c : Char}
    (hc : (a ++ b).getLast? = some c) : c ∈ b := by
  cases hd : b.getLast? with
  | none => exact absurd (List.getLast?_eq_none_iff.1 hd) hb
  | some d =>
    rw [List.getLast?_append, hd, Option.some_or] at hc
    exact List.mem_of_getLast? (hd.trans hc)

/-- A line shows what follows where it was begun, as long as no line ends. -/
theorem exists_content_of_rawLines {begun shown later raw : List Char} {more : List (List Char)}
    (start : Nat) (hbegun : '\n' ∉ begun) (hne : shown ≠ [])
    (hshown : ∀ c ∈ shown, c ≠ '\n' ∧ c ≠ '\r')
    (hraw : rawLines (begun ++ (shown ++ later)) = raw :: more) :
    ∃ content, (Line.ofRaw start raw).content = begun ++ shown ++ content := by
  have hno : '\n' ∉ begun ++ shown := by
    simp only [List.mem_append, not_or]
    exact ⟨hbegun, fun h => (hshown _ h).1 rfl⟩
  obtain ⟨first, more', hraw', -⟩ := exists_rawLines_append hno later
  rw [List.append_assoc, hraw] at hraw'
  obtain ⟨rfl, -⟩ := List.cons.inj hraw'
  refine exists_content_append start ?_ ?_ first
  · exact fun h => (hshown _ (mem_of_getLast?_append hne h)).1 rfl
  · exact fun h => (hshown _ (mem_of_getLast?_append hne h)).2 rfl

/-- **The line in which a byte stands.**  Its index is the number of line feeds before the byte.  It
starts after the last of them, and shows what follows as long as no line ends. -/
theorem exists_line (before after : List Char) : ∃ earlier begun line,
    before = earlier ++ begun ∧ '\n' ∉ begun ∧
      lineIndex? (before ++ after) (byteLength before) = some (before.count '\n') ∧
      (lines (before ++ after))[before.count '\n']? = some line ∧
      line.start = byteLength earlier ∧
      ∀ shown later, after = shown ++ later → shown ≠ [] → (∀ c ∈ shown, c ≠ '\n' ∧ c ≠ '\r') →
        ∃ content, line.content = begun ++ shown ++ content := by
  -- the line was begun after the last line feed before the byte
  obtain ⟨ls, begun, rfl, hls, hbegun⟩ := exists_joinLines before
  obtain ⟨first, more, hraw, hmore⟩ := exists_rawLines_append hbegun after
  have hcount : (joinLines ls ++ begun).count '\n' = ls.length := by
    rw [List.count_append, count_joinLines hls, List.count_eq_zero.2 hbegun, Nat.add_zero]
  have hlines : rawLines (joinLines ls ++ (begun ++ after))
      = ls.map (· ++ ['\n']) ++ (begun ++ first) :: more := by
    rw [rawLines_joinLines hls, hraw]
  have hlength : (ls.map (· ++ ['\n'])).length = ls.length := List.length_map _
  have hline := getElem?_lines_of_rawLines hlines
  rw [flatten_map_append, hlength] at hline
  rw [hcount, List.append_assoc]
  refine ⟨joinLines ls, begun, Line.ofRaw (byteLength (joinLines ls)) (begun ++ first), rfl, hbegun,
    ?_, hline, rfl, ?_⟩
  · rw [← hlength]
    refine lineIndex?_of_rawLines hlines ?_ ?_ ?_
    · rw [flatten_map_append, byteLength_append]
      exact Nat.le_add_right _ _
    · -- the rest of the line at least ends with a line feed
      intro hne
      have hpos : byteLength first ≠ 0 := fun h => hmore hne (byteLength_eq_zero.1 h)
      simp only [flatten_map_append, byteLength_append]
      omega
    · simp only [byteLength_append]
      omega
  · rintro shown later rfl hne hshown
    exact exists_content_of_rawLines _ hbegun hne hshown hraw

/-! ### The lines of any offsets -/

theorem rawLines_ne_nil (text : List Char) : rawLines text ≠ [] := by
  obtain ⟨first, more, hraw, -⟩ := exists_rawLines_append (l := []) (by simp) text
  rw [List.nil_append] at hraw
  simp [hraw]

/-- Of stretches that follow one another, one is the last that starts at or before a byte. -/
theorem exists_stretch {byte : Nat} : ∀ {xs : List (List Char)} {start : Nat}, xs ≠ [] →
    start ≤ byte → ∃ earlier x later, xs = earlier ++ x :: later ∧
      start + byteLength earlier.flatten ≤ byte ∧
      (later ≠ [] → byte < start + byteLength earlier.flatten + byteLength x) := by
  intro xs
  induction xs with
  | nil => exact fun hne => absurd rfl hne
  | cons x xs ih =>
    intro start _ hstart
    by_cases hmore : xs ≠ [] ∧ start + byteLength x ≤ byte
    · obtain ⟨hne, hle⟩ := hmore
      obtain ⟨earlier, y, later, rfl, hlow, hhigh⟩ := ih hne hle
      refine ⟨x :: earlier, y, later, rfl, ?_⟩
      rw [List.flatten_cons, byteLength_append, ← Nat.add_assoc]
      exact ⟨hlow, hhigh⟩
    · refine ⟨[], x, xs, rfl, by simpa using hstart, ?_⟩
      intro hne
      have hlt : ¬ start + byteLength x ≤ byte := fun hle => hmore ⟨hne, hle⟩
      simpa using hlt

/-- Only bytes of the text, and the end of it, stand in a line. -/
theorem le_of_lineIndex? {text : List Char} {byte i : Nat} (h : lineIndex? text byte = some i) :
    byte ≤ byteLength text := by
  unfold lineIndex? at h
  split at h
  · assumption
  · cases h

/-- The lines before the one in which a byte stands, that line, and the lines after it. -/
theorem exists_rawLines (text : List Char) (byte : Nat) :
    ∃ earlier raw later, rawLines text = earlier ++ raw :: later ∧
      byteLength earlier.flatten ≤ byte ∧
      (later ≠ [] → byte < byteLength earlier.flatten + byteLength raw) := by
  simpa only [Nat.zero_add] using exists_stretch (rawLines_ne_nil text) (Nat.zero_le byte)

/-! ### How lines end -/

/-- Only the given character is dropped at the end of a text. -/
theorem dropFinal_cases (final : Char) (text : List Char) :
    dropFinal final text = text ∨ text = dropFinal final text ++ [final] := by
  unfold dropFinal
  split
  · next h =>
    obtain ⟨front, rfl⟩ := List.getLast?_eq_some_iff.1 h
    exact Or.inr (by simp)
  · exact Or.inl rfl

/-- The line ends with a line feed or with nothing, as given, and with a carriage return before that
if there is one. -/
def Line.EndsAt (feed : List Char) (l : Line) : Prop :=
  l.ending = feed ∧ l.content.getLast? ≠ some '\r' ∨ l.ending = '\r' :: feed

theorem Line.EndsAt.of_content {line : Line} {l feed : List Char}
    (hcontent : line.content = dropFinal '\r' l)
    (hsplit : line.content ++ line.ending = l ++ feed) : line.EndsAt feed := by
  by_cases hlast : l.getLast? = some '\r'
  · obtain ⟨front, rfl⟩ := List.getLast?_eq_some_iff.1 hlast
    have hfront : line.content = front := by rw [hcontent, dropFinal, if_pos hlast]; simp
    rw [hfront, List.append_assoc] at hsplit
    exact Or.inr (List.append_cancel_left hsplit)
  · have hwhole : line.content = l := by rw [hcontent, dropFinal, if_neg hlast]
    rw [hwhole] at hsplit
    exact Or.inl ⟨List.append_cancel_left hsplit, by rwa [hwhole]⟩

theorem content_ofRaw_feed (start : Nat) (l : List Char) :
    (Line.ofRaw start (l ++ ['\n'])).content = dropFinal '\r' l := by simp [Line.ofRaw, dropFinal]

theorem content_ofRaw_last (start : Nat) {l : List Char} (hl : '\n' ∉ l) :
    (Line.ofRaw start l).content = dropFinal '\r' l := by
  have hfeed : dropFinal '\n' l = l := by
    rcases dropFinal_cases '\n' l with hdrop | hdrop
    · exact hdrop
    · exact absurd (hdrop ▸ List.mem_append_right _ (by simp)) hl
  rw [Line.ofRaw, hfeed]

theorem endsAt_ofRaw_feed (start : Nat) (l : List Char) :
    (Line.ofRaw start (l ++ ['\n'])).EndsAt ['\n'] :=
  .of_content (content_ofRaw_feed start l) (content_append_ending start _)

theorem endsAt_ofRaw_last (start : Nat) {l : List Char} (hl : '\n' ∉ l) :
    (Line.ofRaw start l).EndsAt [] := by
  refine .of_content (content_ofRaw_last start hl) ?_
  rw [List.append_nil]
  exact content_append_ending start l

/-- A line that ends with a line feed has it as its ending, perhaps after a carriage return. -/
theorem ending_ofRaw_feed (start : Nat) (l : List Char) :
    (Line.ofRaw start (l ++ ['\n'])).ending = ['\n'] ∨
      (Line.ofRaw start (l ++ ['\n'])).ending = ['\r', '\n'] :=
  (endsAt_ofRaw_feed start l).imp_left And.left

/-- A line without a line feed ends with nothing, or with a carriage return. -/
theorem ending_ofRaw_last (start : Nat) {l : List Char} (hl : '\n' ∉ l) :
    (Line.ofRaw start l).ending = [] ∨ (Line.ofRaw start l).ending = ['\r'] :=
  (endsAt_ofRaw_last start hl).imp_left And.left

/-- All lines before one of the lines of a text end with a line feed, and have none inside. -/
theorem exists_map_of_rawLines {text raw : List Char} {earlier later : List (List Char)}
    (h : rawLines text = earlier ++ raw :: later) :
    ∃ ls : List (List Char), earlier = ls.map (· ++ ['\n']) ∧ ∀ l ∈ ls, '\n' ∉ l := by
  obtain ⟨ls, last, rfl, hls, hlast⟩ := exists_joinLines text
  rw [rawLines_joinLines hls, rawLines_of_not_mem hlast] at h
  rcases List.append_eq_append_iff.1 h with ⟨between, rfl, hright⟩ | ⟨between, hleft, -⟩
  · -- there is but one line after those that end with a line feed
    cases between with
    | nil => exact ⟨ls, List.append_nil _, hls⟩
    | cons x between => simp at hright
  · obtain ⟨front, back, rfl, rfl, -⟩ := List.map_eq_append_iff.1 hleft
    exact ⟨front, rfl, fun l hl => hls l (List.mem_append_left _ hl)⟩

/-- All lines but the last end with a line feed, and none has one inside. -/
theorem rawLines_cases {text raw : List Char} {earlier later : List (List Char)}
    (h : rawLines text = earlier ++ raw :: later) :
    (∃ l, raw = l ++ ['\n'] ∧ '\n' ∉ l ∧ later ≠ []) ∨ (later = [] ∧ '\n' ∉ raw) := by
  cases later with
  | nil =>
    obtain ⟨ls, last, rfl, hls, hlast⟩ := exists_joinLines text
    rw [rawLines_joinLines hls, rawLines_of_not_mem hlast] at h
    obtain ⟨-, hraw⟩ := List.append_inj' h rfl
    obtain rfl : last = raw := by simpa using hraw
    exact Or.inr ⟨rfl, hlast⟩
  | cons next later =>
    -- the line is one of those before the next line
    have hnext : rawLines text = (earlier ++ [raw]) ++ next :: later := by simpa using h
    obtain ⟨ls, hmap, hls⟩ := exists_map_of_rawLines hnext
    obtain ⟨l, hl, rfl⟩ := List.mem_map.1 (hmap ▸ List.mem_append_right _ (by simp) :
      raw ∈ ls.map (· ++ ['\n']))
    exact Or.inl ⟨l, rfl, hls l hl, by simp⟩

theorem stop_add_ending (start : Nat) (raw : List Char) :
    (Line.ofRaw start raw).stop + byteLength (Line.ofRaw start raw).ending
      = start + byteLength raw := by
  have hsplit := congrArg byteLength (content_append_ending start raw)
  rw [byteLength_append] at hsplit
  have hstop : (Line.ofRaw start raw).stop
      = start + byteLength (Line.ofRaw start raw).content := rfl
  omega

/-- The bytes of a line up to its line feed: only the line feed after a carriage return stands
beyond where the content stops. -/
theorem le_stop_of_feed {start byte : Nat} {l : List Char}
    (h : byte < start + byteLength (l ++ ['\n'])) :
    byte ≤ (Line.ofRaw start (l ++ ['\n'])).stop ∨
      byte = (Line.ofRaw start (l ++ ['\n'])).stop + 1 ∧
        ∃ more, (Line.ofRaw start (l ++ ['\n'])).ending = '\r' :: more := by
  rw [← stop_add_ending] at h
  rcases ending_ofRaw_feed start l with hending | hending
  · rw [hending] at h
    exact Or.inl (Nat.le_of_lt_succ h)
  · rw [hending] at h ⊢
    have hlt : byte < (Line.ofRaw start (l ++ ['\n'])).stop + 2 := h
    by_cases hle : byte ≤ (Line.ofRaw start (l ++ ['\n'])).stop
    · exact Or.inl hle
    · exact Or.inr ⟨by omega, _, rfl⟩

/-- The bytes of a last line, and where it ends. -/
theorem le_stop_of_last {start byte : Nat} {l : List Char} (hl : '\n' ∉ l)
    (h : byte ≤ start + byteLength l) :
    byte ≤ (Line.ofRaw start l).stop ∨ byte = (Line.ofRaw start l).stop + 1 ∧
      ∃ more, (Line.ofRaw start l).ending = '\r' :: more := by
  rw [← stop_add_ending] at h
  rcases ending_ofRaw_last start hl with hending | hending
  · rw [hending] at h
    exact Or.inl h
  · rw [hending] at h ⊢
    have hle : byte ≤ (Line.ofRaw start l).stop + 1 := h
    rcases Nat.le_or_eq_of_le_succ hle with hle | heq
    · exact Or.inl hle
    · exact Or.inr ⟨heq, _, rfl⟩

/-- **The line in which any byte stands**, even one inside a character.  The line starts at or
before the byte, and the byte stands in its content, where that stops, or between the carriage
return and the line feed of its ending. -/
theorem exists_parts_of_lineIndex? {text : List Char} {byte i : Nat}
    (h : lineIndex? text byte = some i) : ∃ line before after, (lines text)[i]? = some line ∧
      text = before ++ (line.content ++ (line.ending ++ after)) ∧ line.start = byteLength before ∧
        line.start ≤ byte ∧
        (byte ≤ line.stop ∨ byte = line.stop + 1 ∧ ∃ more, line.ending = '\r' :: more) := by
  have hsize := le_of_lineIndex? h
  obtain ⟨earlier, raw, later, hraw, hlow, hhigh⟩ := exists_rawLines text byte
  obtain rfl : i = earlier.length :=
    Option.some.inj (h.symm.trans (lineIndex?_of_rawLines hraw hlow hhigh hsize))
  have htext := eq_of_rawLines hraw
  have hsplit := content_append_ending (byteLength earlier.flatten) raw
  refine ⟨Line.ofRaw (byteLength earlier.flatten) raw, earlier.flatten, later.flatten,
    getElem?_lines_of_rawLines hraw, ?_, rfl, hlow, ?_⟩
  · rw [← List.append_assoc (Line.content _), hsplit]
    exact htext
  · rcases rawLines_cases hraw with ⟨l, rfl, -, hne⟩ | ⟨rfl, hno⟩
    · exact le_stop_of_feed (hhigh hne)
    · refine le_stop_of_last hno ?_
      rw [htext] at hsize
      simpa using hsize

/-- The line in which any byte stands starts at or before it, and at a seam of the text. -/
theorem exists_line_of_lineIndex? {text : List Char} {byte i : Nat}
    (h : lineIndex? text byte = some i) : ∃ line before after, (lines text)[i]? = some line ∧
      text = before ++ after ∧ line.start = byteLength before ∧ line.start ≤ byte := by
  obtain ⟨line, before, after, hline, htext, hstart, hle, -⟩ := exists_parts_of_lineIndex? h
  exact ⟨line, before, _, hline, htext, hstart, hle⟩

end Sapling.Text
