import Sapling.Proofs.Lexemes
import Sapling.Token.Stream

/-!
# Texts as they are laid out

A text is laid out as tokens with gaps around them, in a way that nothing else reads as well: the
tokens are the longest ones, and the gaps go on as far as they can.  Cutting a text into tokens
finds this layout, so it loses nothing of the text.

## Main definitions

* `Gap after gap` — the text `gap` consists of blanks and comments, when `after` follows it.
* `Laid offset text ts` — a text that starts at an offset is laid out as the tokens `ts`.
* `Token.FoundIn` — what can be said of one token of a text.

## Main results

* `Laid.drain_eq`, `exists_laid` — cutting finds the layout of a text, and every text has one.
* `drain_ofText_lossless` — the tokens of a text, the gaps between them, and what comes after them.
-/

namespace Sapling

open Text Lexer TokenStream

/-! ### Gaps -/

/-- Blanks and comments.  A comment runs up to the end of its line, or of the input, so it matters
what follows a gap. -/
inductive Gap (after : List Char) : List Char → Prop where
  /-- No gap at all. -/
  | nil : Gap after []
  /-- A blank. -/
  | blank {c : Char} {gap : List Char} : isBlank c → Gap after gap → Gap after (c :: gap)
  /-- A comment. -/
  | comment {body gap : List Char} : (∀ c ∈ body, c ≠ '\n') →
      (∀ c ∈ (gap ++ after).head?, c = '\n') → Gap after gap →
      Gap after ('/' :: '/' :: (body ++ gap))

/-- Gaps one after the other are one gap. -/
theorem Gap.append {gap gap' after : List Char} (h : Gap (gap' ++ after) gap)
    (h' : Gap after gap') : Gap after (gap ++ gap') := by
  induction h with
  | nil => exact h'
  | blank hc _ ih => exact .blank hc ih
  | @comment body gap hbody hend _ ih =>
    have hmore : Gap after ('/' :: '/' :: (body ++ (gap ++ gap'))) :=
      .comment hbody (by rwa [List.append_assoc]) ih
    rwa [← List.append_assoc] at hmore

/-- A gap remains one if other text follows that begins with the same character, or with the end of
a line. -/
theorem Gap.of_head {gap after after' : List Char} (h : Gap after gap)
    (hhead : ∀ c ∈ after'.head?, c = '\n' ∨ c ∈ after.head?) : Gap after' gap := by
  induction h with
  | nil => exact .nil
  | blank hc _ ih => exact .blank hc ih
  | @comment body gap hbody hend _ ih =>
    refine .comment hbody ?_ ih
    intro c hc
    cases gap with
    | nil =>
      rcases hhead c hc with hnewline | hsame
      · exact hnewline
      · exact hend c hsame
    | cons d gap => exact hend c hc

/-- No gap goes on at the beginning of the text. -/
def StartsNoGap (text : List Char) : Prop :=
  ∀ c rest, text = c :: rest → ¬ isBlank c ∧ ¬ (c = '/' ∧ rest.head? = some '/')

theorem startsNoGap_nil : StartsNoGap [] := by
  rintro c rest ⟨⟩

/-- A comment is read up to the end of its line. -/
theorem leadingGap_comment {body text : List Char} (hbody : ∀ c ∈ body, c ≠ '\n')
    (htext : ∀ c ∈ text.head?, c = '\n') :
    leadingGap true (body ++ text) = body ++ leadingGap false text := by
  induction body with
  | nil =>
    cases text with
    | nil => rfl
    | cons c rest =>
      obtain rfl := htext c rfl
      rfl
  | cons c body ih =>
    have hc : c ≠ '\n' := hbody c (by simp)
    have hmore := ih fun d hd => hbody d (by simp [hd])
    simp [leadingGap, hc, hmore]

/-- **Each gap is passed over**, up to where no gap goes on. -/
theorem Gap.leadingGap_eq {gap after : List Char} (h : Gap after gap) (hafter : StartsNoGap after) :
    leadingGap false (gap ++ after) = gap := by
  induction h with
  | nil =>
    cases after with
    | nil => rfl
    | cons c rest =>
      obtain ⟨hblank, hcomment⟩ := hafter c rest rfl
      simp [leadingGap, hblank, hcomment]
  | blank hc _ ih => simp [leadingGap, hc, ih]
  | comment hbody hend _ ih =>
    have hmore := leadingGap_comment hbody hend
    rw [ih] at hmore
    simp [leadingGap, isBlank, hmore]

/-- At the beginning of every text stands a gap, up to where no gap goes on.  The second part is
about texts that begin inside a comment. -/
theorem exists_gap_or_comment : ∀ text : List Char,
    (∃ gap after, text = gap ++ after ∧ Gap after gap ∧ StartsNoGap after) ∧
      ∃ body gap after, text = body ++ (gap ++ after) ∧ (∀ c ∈ body, c ≠ '\n') ∧
        (∀ c ∈ (gap ++ after).head?, c = '\n') ∧ Gap after gap ∧ StartsNoGap after := by
  intro text
  induction text with
  | nil =>
    exact ⟨⟨[], [], rfl, .nil, startsNoGap_nil⟩,
      [], [], [], rfl, by simp, by simp, .nil, startsNoGap_nil⟩
  | cons c rest ih =>
    obtain ⟨⟨gap, after, hrest, hgap, hafter⟩, hinside⟩ := ih
    obtain ⟨body, gap', after', hrest', hbody, hend, hgap', hafter'⟩ := hinside
    have hgaps : ∃ gap after, c :: rest = gap ++ after ∧ Gap after gap ∧ StartsNoGap after := by
      by_cases hblank : isBlank c
      · exact ⟨c :: gap, after, by rw [hrest, List.cons_append], .blank hblank hgap, hafter⟩
      by_cases hcomment : c = '/' ∧ rest.head? = some '/'
      · -- the second slash is the first character that the comment goes on with
        obtain ⟨rfl, hslash⟩ := hcomment
        rw [hrest'] at hslash
        cases body with
        | nil => exact absurd (hend '/' hslash) (by decide)
        | cons d body =>
          obtain rfl : d = '/' := by simpa using hslash
          refine ⟨'/' :: '/' :: (body ++ gap'), after', ?_, ?_, hafter'⟩
          · rw [hrest']
            simp
          · exact .comment (fun e he => hbody e (List.mem_cons_of_mem _ he)) hend hgap'
      · refine ⟨[], c :: rest, rfl, .nil, ?_⟩
        rintro d rest' ⟨⟩
        exact ⟨hblank, hcomment⟩
    refine ⟨hgaps, ?_⟩
    by_cases hc : c = '\n'
    · obtain ⟨gap, after, htext, hgap, hafter⟩ := hgaps
      refine ⟨[], gap, after, htext, by simp, ?_, hgap, hafter⟩
      rw [← htext]
      simpa using hc
    · refine ⟨c :: body, gap', after', by rw [hrest', List.cons_append], ?_, hend, hgap', hafter'⟩
      simpa [hc] using hbody

/-- At the beginning of every text stands a gap, up to where no gap goes on. -/
theorem exists_gap (text : List Char) :
    ∃ gap after, text = gap ++ after ∧ Gap after gap ∧ StartsNoGap after :=
  (exists_gap_or_comment text).1

/-! ### Layouts -/

/-- No gap goes on where a token stands. -/
theorem Lexeme.startsNoGap {kind : TokenKind} {text rest : List Char} (h : Lexeme kind text)
    (hends : kind.EndsBefore rest) : StartsNoGap (text ++ rest) := by
  intro c later htext
  obtain ⟨d, w, rfl⟩ := List.exists_cons_of_ne_nil h.ne_nil
  obtain ⟨rfl, rfl⟩ := List.cons.inj htext
  refine ⟨h.not_isBlank, ?_⟩
  -- a token that begins with a slash is a slash alone, and does not end before another one
  rintro ⟨rfl, hslash⟩
  rcases h.of_not_isWordChar (by decide) with rfl | ⟨-, hc | hc⟩
  · have hkind : kind = .slash := h.of_ofSymbol rfl
    rw [hkind] at hends
    exact hends '/' hslash rfl
  · cases hc
  · cases hc

/-- A text that starts at an offset is laid out as tokens: each is the longest lexeme where it
stands, and all between them is blanks and comments. -/
inductive Laid : Nat → List Char → List Token → Prop where
  /-- There are no more tokens. -/
  | done {offset : Nat} {gap : List Char} : Gap [] gap → Laid offset gap []
  /-- A gap, a token, and more. -/
  | token {offset : Nat} {gap literal rest : List Char} {kind : TokenKind} {ts : List Token} :
      Gap (literal ++ rest) gap → Lexeme kind literal → kind.EndsBefore rest →
      Laid (offset + byteLength gap + byteLength literal) rest ts →
      Laid offset (gap ++ (literal ++ rest))
        (⟨kind, String.ofList literal,
          ⟨offset + byteLength gap, offset + byteLength gap + byteLength literal⟩⟩ :: ts)

/-- **Every text is laid out** in some way.  The induction is on its length: each token takes some.
-/
theorem exists_laid : ∀ (n offset : Nat) {text : List Char}, text.length ≤ n →
    ∃ ts, Laid offset text ts := by
  intro n
  induction n with
  | zero =>
    intro offset text hlen
    obtain rfl := List.length_eq_zero_iff.1 (Nat.le_zero.1 hlen)
    exact ⟨[], .done .nil⟩
  | succ n ih =>
    intro offset text hlen
    obtain ⟨gap, after, rfl, hgap, hafter⟩ := exists_gap text
    cases after with
    | nil =>
      rw [List.append_nil]
      exact ⟨[], .done hgap⟩
    | cons c rest =>
      obtain ⟨hblank, hcomment⟩ := hafter c rest rfl
      obtain ⟨kind, w, later, rfl, hlexeme, hends⟩ := exists_lexeme hblank hcomment
      have hshort : later.length ≤ n := by
        simp only [List.length_append, List.length_cons] at hlen
        omega
      obtain ⟨ts, hts⟩ := ih (offset + byteLength gap + byteLength (c :: w)) hshort
      exact ⟨_, .token hgap hlexeme hends hts⟩

/-- A gap in front of a text joins the gap that its layout begins with. -/
theorem Laid.gap_append {gap text : List Char} {ts : List Token} (offset : Nat) (h : Gap text gap)
    (hlaid : Laid (offset + byteLength gap) text ts) : Laid offset (gap ++ text) ts := by
  generalize hstart : offset + byteLength gap = start at hlaid
  cases hlaid with
  | done hgap' =>
    rw [← List.append_nil text] at h
    exact .done (h.append hgap')
  | @token _ gap' literal rest kind ts hgap' hlex hends hmore =>
    have hlen : start + byteLength gap' = offset + byteLength (gap ++ gap') := by
      rw [byteLength_append, ← hstart, Nat.add_assoc]
    rw [hlen] at hmore ⊢
    rw [← List.append_assoc gap]
    exact .token (h.append hgap') hlex hends hmore

/-- The next token, where no more tokens stand. -/
theorem next_gap {gap : List Char} (offset : Nat) (h : Gap [] gap) :
    Lexer.next ⟨⟨offset, gap⟩⟩
      = (.eof (offset + byteLength gap), ⟨⟨offset + byteLength gap, []⟩⟩) := by
  have hgap : leadingGap false gap = gap := by
    have := h.leadingGap_eq startsNoGap_nil
    rwa [List.append_nil] at this
  simp [Lexer.next, hgap, Cursor.advance]

/-- The next token, where one stands. -/
theorem next_lexeme {gap literal rest : List Char} {kind : TokenKind} (offset : Nat)
    (hgap : Gap (literal ++ rest) gap) (h : Lexeme kind literal) (hends : kind.EndsBefore rest) :
    Lexer.next ⟨⟨offset, gap ++ (literal ++ rest)⟩⟩
      = (⟨kind, String.ofList literal,
          ⟨offset + byteLength gap, offset + byteLength gap + byteLength literal⟩⟩,
        ⟨⟨offset + byteLength gap + byteLength literal, rest⟩⟩) := by
  obtain ⟨c, w, rfl⟩ := List.exists_cons_of_ne_nil h.ne_nil
  -- the cursor goes past the gap, and then past the lexeme
  have hstart : Cursor.advance ⟨offset, gap ++ (c :: w ++ rest)⟩
      (leadingGap false (gap ++ (c :: w ++ rest)))
        = ⟨offset + byteLength gap, c :: (w ++ rest)⟩ := by
    rw [hgap.leadingGap_eq (h.startsNoGap hends)]
    exact Cursor.advance_append offset gap _
  have hstop : Cursor.advance ⟨offset + byteLength gap, c :: (w ++ rest)⟩ (c :: w)
      = ⟨offset + byteLength gap + byteLength (c :: w), rest⟩ :=
    Cursor.advance_append _ (c :: w) rest
  simp only [Lexer.next, hstart, h.lexeme_eq hends, hstop]

/-- Where no more tokens stand, ends of input follow, however many are asked for. -/
theorem pull_gap : ∀ (n : Nat) {gap : List Char} (offset : Nat), Gap [] gap →
    (pull n (⟨⟨offset, gap⟩⟩ : Lexer)).1 = List.replicate n (.eof (offset + byteLength gap)) := by
  intro n
  induction n with
  | zero =>
    intro gap offset _
    rfl
  | succ n ih =>
    intro gap offset hgap
    have hnext : TokenStream.next (⟨⟨offset, gap⟩⟩ : Lexer) = _ := next_gap offset hgap
    rw [pull, hnext]
    simp only [ih _ .nil, byteLength_nil, Nat.add_zero, List.replicate_succ]

namespace Laid

variable {offset : Nat} {text : List Char} {ts : List Token}

/-- **Cutting finds the layout of a text.** -/
theorem drain_eq (h : Laid offset text ts) :
    drain (⟨⟨offset, text⟩⟩ : Lexer) = (ts, .eof (offset + byteLength text)) := by
  induction h with
  | @done offset gap hgap =>
    have hnext : TokenStream.next (⟨⟨offset, gap⟩⟩ : Lexer) = _ := next_gap offset hgap
    rw [drain, hnext]
    exact if_pos rfl
  | @token offset gap literal rest kind ts hgap hlex hends _ ih =>
    have hnext : TokenStream.next (⟨⟨offset, gap ++ (literal ++ rest)⟩⟩ : Lexer) = _ :=
      next_lexeme offset hgap hlex hends
    rw [drain, hnext]
    simp only [if_neg hlex.ne_eof, ih]
    simp only [byteLength_append, Nat.add_assoc]

/-- After the tokens of a text come ends of input, however many are asked for. -/
theorem pull_eq (h : Laid offset text ts) (n : Nat) :
    (pull (ts.length + n) (⟨⟨offset, text⟩⟩ : Lexer)).1
      = ts ++ List.replicate n (.eof (offset + byteLength text)) := by
  induction h with
  | @done offset gap hgap =>
    rw [List.length_nil, Nat.zero_add, List.nil_append]
    exact pull_gap n offset hgap
  | @token offset gap literal rest kind ts hgap hlex hends _ ih =>
    have hnext : TokenStream.next (⟨⟨offset, gap ++ (literal ++ rest)⟩⟩ : Lexer) = _ :=
      next_lexeme offset hgap hlex hends
    rw [List.length_cons, Nat.add_right_comm, pull, hnext]
    simp only [ih, List.cons_append]
    simp only [byteLength_append, Nat.add_assoc]

end Laid

/-! ### Tokens in their text -/

/-- What can be said of one token of a text. -/
structure Token.FoundIn (text : List Char) (t : Token) : Prop where
  /-- It is not empty. -/
  nonempty : t.span.start < t.span.stop
  /-- Its literal is what stands at its span. -/
  slice_eq : slice? text t.span.start t.span.stop = some t.literal.toList
  /-- Its literal is a text of its kind. -/
  lexeme : Lexeme t.kind t.literal.toList
  /-- It could not be longer. -/
  longest : ∃ after, dropBytes? t.span.stop text = some after ∧ t.kind.EndsBefore after ∧
    ∀ kind longer, Lexeme kind longer → longer <+: t.literal.toList ++ after →
      longer.length ≤ t.literal.toList.length

namespace Laid

variable {offset : Nat} {text : List Char} {ts : List Token}

/-- Each token splits its text into what stands before it, its literal, and what stands after it. -/
theorem exists_split (h : Laid offset text ts) (before : List Char)
    (hoffset : byteLength before = offset) :
    ∀ t ∈ ts, ∃ earlier after, before ++ text = earlier ++ (t.literal.toList ++ after) ∧
      t.span = ⟨byteLength earlier, byteLength earlier + byteLength t.literal.toList⟩ ∧
      Lexeme t.kind t.literal.toList ∧ t.kind.EndsBefore after := by
  induction h generalizing before with
  | done => simp
  | @token offset gap literal rest kind ts hgap hlex hends _ ih =>
    subst hoffset
    intro t ht
    rcases List.mem_cons.1 ht with rfl | ht
    · refine ⟨before ++ gap, rest, ?_, ?_, ?_, hends⟩
      · rw [String.toList_ofList, List.append_assoc]
      · rw [String.toList_ofList, byteLength_append]
      · rw [String.toList_ofList]
        exact hlex
    · have htext : before ++ (gap ++ (literal ++ rest)) = (before ++ gap ++ literal) ++ rest := by
        simp only [List.append_assoc]
      rw [htext]
      exact ih (before ++ gap ++ literal) (by simp only [byteLength_append]) t ht

theorem foundIn (h : Laid 0 text ts) : ∀ t ∈ ts, t.FoundIn text := by
  intro t ht
  obtain ⟨earlier, after, htext, hspan, hlex, hends⟩ := h.exists_split [] rfl t ht
  rw [List.nil_append] at htext
  subst htext
  have hpos : 0 < byteLength t.literal.toList :=
    Nat.pos_of_ne_zero fun h => hlex.ne_nil (byteLength_eq_zero.1 h)
  refine ⟨?_, ?_, hlex, after, ?_, hends, fun _ _ => hlex.length_le hends⟩
  · rw [hspan]
    exact Nat.lt_add_of_pos_right hpos
  · rw [hspan]
    exact slice?_append _ _ _
  · rw [hspan, ← byteLength_append, ← List.append_assoc]
    exact dropBytes?_append _ _

/-- The literals of the tokens belong to their kinds. -/
theorem lexeme (h : Laid offset text ts) : ∀ t ∈ ts, Lexeme t.kind t.literal.toList := by
  induction h with
  | done => simp
  | token _ hlex _ _ ih => simpa using ⟨hlex, ih⟩

theorem start_le (h : Laid offset text ts) : ∀ t ∈ ts, offset ≤ t.span.start := by
  induction h with
  | done => simp
  | token _ _ _ _ ih =>
    intro t ht
    rcases List.mem_cons.1 ht with rfl | ht
    · exact Nat.le_add_right _ _
    · have := ih t ht
      omega

theorem pairwise (h : Laid offset text ts) :
    ts.Pairwise fun t u => t.span.stop ≤ u.span.start := by
  induction h with
  | done => exact .nil
  | token _ _ _ hmore ih => exact .cons hmore.start_le ih

/-- The stretches of a text between its tokens, before the first one, and after the last. -/
theorem gaps (h : Laid offset text ts) (before : List Char) (hoffset : byteLength before = offset) :
    ∀ p ∈ List.zip (offset :: ts.map (·.span.stop))
        (ts.map (·.span.start) ++ [byteLength (before ++ text)]),
      ∃ gap after, slice? (before ++ text) p.1 p.2 = some gap ∧
        dropBytes? p.2 (before ++ text) = some after ∧ Gap after gap := by
  induction h generalizing before with
  | @done offset gap hgap =>
    subst hoffset
    intro p hp
    obtain rfl : p = (byteLength before, byteLength (before ++ gap)) := by simpa using hp
    have hslice := slice?_append before gap []
    have hdrop := dropBytes?_append (before ++ gap) []
    rw [List.append_nil] at hslice hdrop
    exact ⟨gap, [], by rw [byteLength_append]; exact hslice, hdrop, hgap⟩
  | @token offset gap literal rest kind ts hgap hlex hends _ ih =>
    subst hoffset
    have htext : before ++ (gap ++ (literal ++ rest)) = (before ++ gap) ++ (literal ++ rest) := by
      simp only [List.append_assoc]
    have htext' : before ++ (gap ++ (literal ++ rest)) = (before ++ gap ++ literal) ++ rest := by
      simp only [List.append_assoc]
    intro p hp
    rcases List.mem_cons.1 hp with rfl | hp
    · refine ⟨gap, literal ++ rest, slice?_append _ _ _, ?_, hgap⟩
      rw [htext, ← byteLength_append]
      exact dropBytes?_append _ _
    · rw [htext'] at hp ⊢
      exact ih (before ++ gap ++ literal) (by simp only [byteLength_append]) p hp

end Laid

/-- **Cutting a text into tokens loses nothing.**  The tokens stand in the text in order, do not
overlap, and are as long as they could be.  All before, between and after them is blanks and
comments.  Then come ends of input, however many are asked for. -/
theorem drain_ofText_lossless (text : List Char) :
    let ts := (drain (Lexer.ofText text)).1
    (∀ t ∈ ts, t.FoundIn text) ∧
      (ts.Pairwise fun t u => t.span.stop ≤ u.span.start) ∧
      (∀ p ∈ List.zip (0 :: ts.map (·.span.stop)) (ts.map (·.span.start) ++ [byteLength text]),
        ∃ gap after, slice? text p.1 p.2 = some gap ∧ dropBytes? p.2 text = some after ∧
          Gap after gap) ∧
      (drain (Lexer.ofText text)).2 = .eof (byteLength text) ∧
      ∀ n, (pull (ts.length + n) (Lexer.ofText text)).1
        = ts ++ List.replicate n (.eof (byteLength text)) := by
  obtain ⟨ts, h⟩ := exists_laid text.length 0 (Nat.le_refl _)
  have hdrain : drain (Lexer.ofText text) = (ts, .eof (byteLength text)) := by
    have := h.drain_eq
    rwa [Nat.zero_add] at this
  have hpull := h.pull_eq
  rw [Nat.zero_add] at hpull
  rw [hdrain]
  exact ⟨h.foundIn, h.pairwise, h.gaps [] rfl, rfl, hpull⟩

end Sapling
