import Sapling.Proofs.Rendering

/-!
# Columns of underlines

An underline is put below the part of a line that it is about: so many blanks as the text before it
takes, and so many signs as the text itself takes.  The line is drawn with four blanks for each tab.
A tab is counted as those four columns and once more, as the control character that it is.  So
underlines are in their place just where no tab stands before them, and as long as their text just
where no tab stands in it.

The display width of a text is found from its end, and a sign that is joined to what follows it may
take columns back that were counted before.  It never takes back more than was counted.

## Main definitions

* `Text.Following.debt` — the columns that a sign may still take back.

## Main results

* `Text.debt_widthStep`, `Text.debt_widthFrom` — what may be taken back was counted before.
* `Text.widthFrom_expandTabs` — the width of a text with blanks for its tabs.
* `Render.columns_eq_expandTabs` — the columns counted for a text, by those it takes as it is drawn.
* `Render.underline_columns` — underlines, by the columns of the row above them.
-/

namespace Sapling

namespace Text

/-! ### Widths are not negative -/

/-- The columns that are taken back if a letter is written as one with those before it. -/
def Ligature.debt : Ligature → Nat
  | joinedConsonant => 1
  | subscript => 1
  | _ => 0

/-- The columns that are taken back if what follows is joined to the next character before it. -/
def Following.debt : Following → Nat
  | joinedRegional => 1
  | joinedOdd => 1
  | ligature l _ => l.debt
  | _ => 0

/-- Letters that can be written below another take a column. -/
theorem one_le_charWidth_of_subscript {c : Char} (hlow : 0x1780 ≤ c.toNat)
    (hhigh : c.toNat ≤ 0x17AF) : 1 ≤ charWidth c := by
  have hranges : ∀ r ∈ zeroWidthRanges, r.2 < 0x1780 ∨ 0x17AF < r.1 := by decide +kernel
  have hzero : inRanges zeroWidthRanges c ≠ true := by
    intro h
    obtain ⟨r, hr, hle, hge⟩ := inRanges_iff.1 h
    have := hranges r hr
    omega
  unfold charWidth
  rw [if_neg hzero]
  repeat' split
  all_goals decide

/-- Only letters that can be written below another make a debt by themselves. -/
theorem debt_ofChar (c : Char) : (Following.ofChar c).debt = 0 ∨
    (Following.ofChar c).debt = 1 ∧ 0x1780 ≤ c.toNat ∧ c.toNat ≤ 0x17AF := by
  unfold Following.ofChar
  dsimp only
  repeat' split
  case isFalse.isFalse.isFalse.isFalse.isFalse.isFalse.isFalse.isFalse.isFalse.isTrue h =>
    refine Or.inr ⟨rfl, ?_⟩
    obtain ⟨r, hr, hle, hge⟩ := inRanges_iff.1 h
    simp only [List.mem_cons, List.not_mem_nil, or_false] at hr
    rcases hr with rfl | rfl | rfl | rfl | rfl | rfl | rfl | rfl | rfl | rfl | rfl <;>
      exact ⟨by omega, by omega⟩
  all_goals exact Or.inl rfl

/-- What a character makes by itself takes back no more than the columns of the character. -/
theorem debt_ofChar_le (c : Char) : (Following.ofChar c).debt ≤ charWidth c := by
  rcases debt_ofChar c with hnone | ⟨hone, hlow, hhigh⟩
  · rw [hnone]
    exact Nat.zero_le _
  · rw [hone]
    exact one_le_charWidth_of_subscript hlow hhigh

/-- Joining with a letter takes back no more than its debt. -/
theorem debt_ligate? {l : Ligature} {joined : Bool} {c : Char} {columns : Int} {f : Following}
    (h : ligate? l joined c = some (columns, f)) : f.debt ≤ columns + l.debt := by
  unfold ligate? at h
  dsimp only at h
  repeat' split at h
  all_goals
    simp only [Option.some.injEq, Prod.mk.injEq, reduceCtorEq] at h
  all_goals
    obtain ⟨rfl, rfl⟩ := h
    simp only [Following.debt, Ligature.debt]
    omega

/-- Joining with what follows takes back no more than its debt. -/
theorem debt_combine? {f g : Following} {c : Char} {columns : Int}
    (h : combine? f c = some (columns, g)) : g.debt ≤ columns + f.debt := by
  unfold combine? at h
  dsimp only at h
  split at h
  case h_3 l joined => exact debt_ligate? h
  all_goals
    repeat' split at h
  all_goals
    simp only [Option.some.injEq, Prod.mk.injEq, reduceCtorEq] at h
  all_goals
    obtain ⟨rfl, rfl⟩ := h
    simp only [Following.debt]
    omega

/-- A variation selector leaves no more debt than there was. -/
theorem debt_select_le (f : Following) (s : Selector) : (f.select s).debt ≤ f.debt := by
  unfold Following.select
  repeat' split
  all_goals simp [Following.debt]

theorem debt_dropSelector_le (ctx : Context) : ctx.dropSelector.debt ≤ ctx.following.debt := by
  unfold Context.dropSelector
  split
  · exact Nat.le_refl _
  · next h => exact Nat.le_of_eq (congrArg Following.debt h.symm)
  · exact Nat.zero_le _

/-- A character takes back no more than the debt of what follows it, where no emoji selector applies
to it. -/
theorem debt_plainStep (c : Char) (ctx : Context) :
    (plainStep c ctx).2.following.debt ≤ (plainStep c ctx).1 + ctx.following.debt := by
  unfold plainStep
  repeat' split
  case h_1 columns f hcombine =>
    have hjoin := debt_combine? hcombine
    have hdrop := debt_dropSelector_le ctx
    simp only
    omega
  case h_2 =>
    have hself := debt_ofChar_le c
    simp only
    omega
  case isFalse.isTrue =>
    have := debt_select_le ctx.following .emoji
    simp only
    omega
  case isFalse.isFalse.isTrue =>
    have := debt_select_le ctx.following .text
    simp only
    omega
  all_goals
    simp only [Following.debt]
    omega

/-- **One character takes back no more than the debt of what follows it.** -/
theorem debt_widthStep (c : Char) (ctx : Context) :
    (widthStep c ctx).2.following.debt ≤ (widthStep c ctx).1 + ctx.following.debt := by
  unfold widthStep
  split
  · split
    · simp only [Following.debt]
      split <;> omega
    · have hplain := debt_plainStep c ⟨ctx.dropSelector, none⟩
      have hdrop := debt_dropSelector_le ctx
      simp only at hplain
      omega
  · exact debt_plainStep c ctx

/-- **What may be taken back was counted before.** -/
theorem debt_widthFrom (text : List Char) :
    (widthFrom text).2.following.debt ≤ (widthFrom text).1 := by
  induction text with
  | nil => decide
  | cons c text ih =>
    have hstep := debt_widthStep c (widthFrom text).2
    simp only [widthFrom]
    omega

/-- Widths are not negative. -/
theorem widthFrom_nonneg (text : List Char) : 0 ≤ (widthFrom text).1 :=
  Int.le_trans (Int.natCast_nonneg _) (debt_widthFrom text)

/-! ### Control characters -/

/-- Control characters and signs of ASCII that no selector applies to take one column, and are
joined to nothing. -/
theorem widthStep_ascii {c : Char} (hlow : c.toNat ≤ 0xA0) (hfeed : c ≠ '\n') (hreturn : c ≠ '\r')
    (hemoji : inRanges emojiSelectableRanges c = false) (ctx : Context) :
    widthStep c ctx = (1, ⟨.plain, none⟩) := by
  have hplain (ctx : Context) : plainStep c ctx = (1, ⟨.plain, none⟩) := by
    unfold plainStep
    rw [if_pos hlow, if_neg hfeed, if_neg fun h => hreturn h.1]
  unfold widthStep
  split
  · rw [if_neg (by simp [hemoji]), hplain]
  · exact hplain ctx

theorem widthFrom_tab (text : List Char) :
    widthFrom ('\t' :: text) = (1 + (widthFrom text).1, ⟨.plain, none⟩) := by
  rw [widthFrom, widthStep_ascii (by decide) (by decide) (by decide) (by decide)]

theorem widthFrom_blank (text : List Char) :
    widthFrom (' ' :: text) = (1 + (widthFrom text).1, ⟨.plain, none⟩) := by
  rw [widthFrom, widthStep_ascii (by decide) (by decide) (by decide) (by decide)]

/-- A carriage return at the end of a text takes one more column. -/
theorem widthFrom_append_return (text : List Char) :
    widthFrom (text ++ ['\r']) = ((widthFrom text).1 + 1, (widthFrom text).2) := by
  induction text with
  | nil => decide
  | cons c text ih =>
    rw [List.cons_append, widthFrom, widthFrom, ih, Int.add_assoc]

end Text

namespace Render

open Text

/-! ### Tabs -/

/-- **The width of a text with blanks for its tabs**: three more columns for each tab, since a tab
takes one itself. -/
theorem widthFrom_expandTabs (text : List Char) : widthFrom (expandTabs text)
    = ((widthFrom text).1 + 3 * (text.count '\t' : Nat), (widthFrom text).2) := by
  induction text with
  | nil => rfl
  | cons c text ih =>
    by_cases hc : c = '\t'
    · subst hc
      have hexpand : expandTabs ('\t' :: text)
          = ' ' :: ' ' :: ' ' :: ' ' :: expandTabs text := rfl
      rw [hexpand]
      simp only [widthFrom_blank, widthFrom_tab, ih, List.count_cons_self]
      congr 1
      omega
    · have hexpand : expandTabs (c :: text) = c :: expandTabs text := by
        simp [expandTabs, hc]
      rw [hexpand, widthFrom, ih, widthFrom, List.count_cons_of_ne hc, Int.add_assoc]

/-- Each tab takes columns in what is drawn for it. -/
theorem three_mul_count_le (text : List Char) :
    3 * text.count '\t' ≤ displayWidth (expandTabs text) := by
  have hwidth := widthFrom_nonneg text
  rw [displayWidth, widthFrom_expandTabs]
  omega

/-- **The columns that are counted for a text** are those that it takes as it is drawn, and one more
for each tab. -/
theorem columns_eq_expandTabs (text : List Char) :
    columns text = displayWidth (expandTabs text) + text.count '\t' := by
  have hwidth := widthFrom_nonneg text
  have htab : tab.length = 4 := rfl
  rw [columns, htab, displayWidth, displayWidth, widthFrom_expandTabs]
  omega

/-- A carriage return at the end of a text is counted as a column. -/
theorem columns_append_return (text : List Char) : columns (text ++ ['\r']) = columns text + 1 := by
  have hwidth := widthFrom_nonneg text
  have hcount : (text ++ ['\r']).count '\t' = text.count '\t' := by
    rw [List.count_append, show ['\r'].count '\t' = 0 by decide, Nat.add_zero]
  rw [columns, columns, hcount, displayWidth, displayWidth, widthFrom_append_return]
  omega

/-- What is measured before a snippet may be more than what is shown of its line: the snippet may
start after the carriage return at the end. -/
theorem columns_begun (begun : List Char) (beyond : Prop) [Decidable beyond] :
    columns (begun ++ if beyond then ['\r'] else [])
      = displayWidth (expandTabs begun) + begun.count '\t' + if beyond then 1 else 0 := by
  split
  · rw [columns_append_return, columns_eq_expandTabs]
  · rw [List.append_nil, columns_eq_expandTabs, Nat.add_zero]

/-! ### Rows and their parts -/

section Parts

variable {m : Mark} {line : Line}

/-- A line is divided by a snippet that starts on it: what stands before the snippet, what is
underlined, and the rest.  Only if the snippet starts beyond the content of the line, which is
between a carriage return and a line feed or after a last carriage return, more than what stands
before it on the line is measured. -/
theorem exists_parts_of_mark (hindex : m.source.lineIndex? m.snippet.span.start = some m.line)
    (hline : m.source.lines[m.line]? = some line)
    (hstart : IsBoundary m.source.chars m.snippet.span.start)
    (hstop : IsBoundary m.source.chars (underlineStop line m.snippet.span)) :
    ∃ before marked rest, line.content = before ++ (marked ++ rest) ∧
      line.start + byteLength before = min m.snippet.span.start line.stop ∧
      line.start + byteLength (before ++ marked)
        = min (underlineStop line m.snippet.span) line.stop ∧
      m.Fits line (before ++ if line.stop < m.snippet.span.start then ['\r'] else []) marked := by
  obtain ⟨line', front, after, hline', htext, hfront, hle, hplace⟩ :=
    exists_parts_of_lineIndex? hindex
  obtain rfl : line' = line := Option.some.inj (hline'.symm.trans hline)
  have hlength : line'.stop = line'.start + byteLength line'.content := rfl
  by_cases hinside : m.snippet.span.start ≤ line'.stop
  · have hstopinside : underlineStop line' m.snippet.span ≤ line'.stop := by
      unfold underlineStop
      omega
    have hmark : m.snippet.span.start ≤ underlineStop line' m.snippet.span := Nat.le_max_right _ _
    rw [htext] at hstart hstop
    obtain ⟨before, marked, rest, hcontent, hbefore, hmarked, hslice, hslice'⟩ :=
      exists_slices hstart hstop (by omega) hmark (by omega)
    rw [← htext] at hslice hslice'
    refine ⟨before, marked, rest, hcontent, by omega, by omega, hindex, hline, ?_, hslice'⟩
    rw [if_neg (by omega), List.append_nil, hfront]
    exact hslice
  · -- all of the line stands before the snippet
    obtain hle | ⟨hafter, more, hending⟩ := hplace
    · exact absurd hle hinside
    have hnone : underlineStop line' m.snippet.span = m.snippet.span.start := by
      unfold underlineStop
      omega
    refine ⟨line'.content, [], [], by simp, by omega, ?_, hindex, hline, ?_, ?_⟩
    · rw [hnone, List.append_nil]
      omega
    · rw [if_pos (by omega)]
      refine slice?_eq_some_iff.2 ⟨front, more ++ after, ?_, hfront.symm, ?_⟩
      · rw [htext, hending]
        simp
      · rw [byteLength_append, show byteLength ['\r'] = 1 from rfl]
        omega
    · rw [hnone]
      obtain ⟨left, right, htext', hleft⟩ := hstart
      exact slice?_eq_some_iff.2 ⟨left, right, htext', hleft, hleft⟩

/-- What a snippet is measured by is what it divides its line into. -/
theorem Mark.Fits.exists_parts {before marked : List Char} (h : m.Fits line before marked) :
    ∃ begun rest, line.content = begun ++ (marked ++ rest) ∧
      line.start + byteLength begun = min m.snippet.span.start line.stop ∧
      before = begun ++ if line.stop < m.snippet.span.start then ['\r'] else [] := by
  obtain ⟨-, hstart, hstop⟩ := exists_slice?_iff.1 ⟨_, h.marked_eq⟩
  obtain ⟨begun, marked', rest, hcontent, hbegun, -, hfits⟩ :=
    exists_parts_of_mark h.index_eq h.line_eq hstart hstop
  obtain rfl : marked = marked' := Option.some.inj (h.marked_eq.symm.trans hfits.marked_eq)
  exact ⟨begun, rest, hcontent, hbegun, Option.some.inj (h.before_eq.symm.trans hfits.before_eq)⟩

end Parts

theorem row_pieces (config : Config) (severity : Severity) (width : Nat) {lines : List Line}
    (marks : List Mark) {index : Nat} {line : Line} (hline : lines[index]? = some line) :
    ∃ more, (row config severity width lines marks index).pieces
      = (gutter config width (some (index + 1))).pieces
        ++ .text (String.ofList (expandTabs line.content) ++ "\n") :: more := by
  rw [row, hline]
  exact ⟨_, rfl⟩

/-- **Underlines, by the columns of the row above them.**  A snippet that may be underlined divides
the row of its line, as it is drawn: what stands before the snippet, the part that is underlined,
and the rest.  The underline is as many blanks as the first of these takes columns, and one more for
each tab; then as many signs as the second takes columns, at least one, and one more for each tab.
So the underline starts below its text just if no tab stands before it, and is as long as its text
just if no tab stands in it.  A snippet that starts between the carriage return and the line feed at
the end of its line, or after a last carriage return, is underlined one column too far to the right.
-/
theorem underline_columns (config : Config) (severity : Severity) {m : Mark} {line : Line}
    (hindex : m.source.lineIndex? m.snippet.span.start = some m.line)
    (hline : m.source.lines[m.line]? = some line)
    (hstart : IsBoundary m.source.chars m.snippet.span.start)
    (hstop : IsBoundary m.source.chars (underlineStop line m.snippet.span)) :
    ∃ before marked rest blankCount signCount,
      line.content = before ++ (marked ++ rest) ∧
        line.start + byteLength before = min m.snippet.span.start line.stop ∧
        line.start + byteLength (before ++ marked)
          = min (underlineStop line m.snippet.span) line.stop ∧
      (∀ width marks, ∃ more, (row config severity width m.source.lines marks m.line).pieces
        = (gutter config width (some (m.line + 1))).pieces
          ++ .text (String.ofList (expandTabs before ++ expandTabs marked ++ expandTabs rest)
            ++ "\n") :: more) ∧
      underline config severity line m = .styled (config.snippet severity m.snippet.role)
        (blanks blankCount ++ String.join (List.replicate signCount config.underline)
          ++ config.underlineAfter ++ m.snippet.label ++ "\n") ∧
      blankCount = displayWidth (expandTabs before) + before.count '\t'
        + (if line.stop < m.snippet.span.start then 1 else 0) ∧
      signCount = max (displayWidth (expandTabs marked) + marked.count '\t') 1 ∧
      (blankCount = displayWidth (expandTabs before) ↔
        '\t' ∉ before ∧ m.snippet.span.start ≤ line.stop) ∧
      (signCount = max (displayWidth (expandTabs marked)) 1 ↔ '\t' ∉ marked) := by
  obtain ⟨before, marked, rest, hcontent, hbefore, hmarked, hfits⟩ :=
    exists_parts_of_mark hindex hline hstart hstop
  have hrow : expandTabs line.content
      = expandTabs before ++ expandTabs marked ++ expandTabs rest := by
    simp only [hcontent, expandTabs, List.flatMap_append, List.append_assoc]
  have hblanks := columns_begun before (line.stop < m.snippet.span.start)
  refine ⟨before, marked, rest, _, _, hcontent, hbefore, hmarked, ?_, underline_eq hfits, hblanks,
    by rw [columns_eq_expandTabs], ?_, ?_⟩
  · intro width marks
    rw [← hrow]
    exact row_pieces config severity width marks hline
  · rw [hblanks, ← List.count_eq_zero]
    split <;> omega
  · have htabs := three_mul_count_le marked
    rw [columns_eq_expandTabs, ← List.count_eq_zero]
    omega

/-- The letter `b` after `a` and a tab: in its row, and above its underline. -/
theorem underline_columns_letter :
    let source : Source := ⟨"main", none, "a\tb"⟩
    let m : Mark := ⟨⟨"here", .primary, 0, ⟨2, 3⟩⟩, source, 0⟩
    let line : Line := ⟨0, ['a', '\t', 'b'], []⟩
    m.source.lineIndex? m.snippet.span.start = some m.line ∧
      m.source.lines[m.line]? = some line ∧
      IsBoundary m.source.chars m.snippet.span.start ∧
      IsBoundary m.source.chars (underlineStop line m.snippet.span) ∧
      ∃ before marked rest blankCount signCount,
        line.content = before ++ (marked ++ rest) ∧
          line.start + byteLength before = min m.snippet.span.start line.stop ∧
          underline .standard .error line m = .styled Config.standard.error
            (blanks blankCount ++ String.join (List.replicate signCount "^") ++ " " ++ "here"
              ++ "\n") ∧
          blankCount = displayWidth (expandTabs before) + before.count '\t' ∧
          (signCount = max (displayWidth (expandTabs marked)) 1 ↔ '\t' ∉ marked) := by
  intro source m line
  have hindex : m.source.lineIndex? m.snippet.span.start = some m.line := by decide
  have hline : m.source.lines[m.line]? = some line := by decide
  have hstart : IsBoundary m.source.chars m.snippet.span.start := by decide
  have hstop : IsBoundary m.source.chars (underlineStop line m.snippet.span) := by decide
  obtain ⟨before, marked, rest, blankCount, signCount, hcontent, hbefore, -, -, hunderline, hblanks,
    -, -, hsigns⟩ := underline_columns .standard .error hindex hline hstart hstop
  exact ⟨hindex, hline, hstart, hstop, before, marked, rest, blankCount, signCount, hcontent,
    hbefore, hunderline, hblanks, hsigns⟩

/-- A letter after a tab is underlined one column too far to the right: it stands in its row after
four blanks for the tab, and its underline after five. -/
theorem render_tab_letter :
    let sources : List Source := [⟨"main", none, "\tx"⟩]
    let snippet : Snippet := ⟨"m", .primary, 0, ⟨1, 2⟩⟩
    let d : Diagnostic := ⟨.error, some "syntax error", [snippet], []⟩
    IsBoundary "\tx".toList 1 ∧ IsBoundary "\tx".toList 2 ∧
      (d.render .standard sources).plain
        = "Error: syntax error\nIn main:1:2\n1 │     x\n  │      ^ m\n\n" ∧
      blanks (displayWidth (expandTabs ['\t'])) = "    " := by
  intro sources snippet d
  refine ⟨by decide, by decide, ?_, by decide⟩
  decide +kernel

end Render

end Sapling
