import Sapling.Proofs.Columns
import Sapling.Proofs.ErrorPlaces
import Sapling.Proofs.Lines
import Sapling.Proofs.Rendering
import Sapling.Proofs.SourceText
import Sapling.Session

/-!
# Syntax errors can be shown

A syntax error is about tokens of its text, or about its end.  Tokens stand on one line, because
they contain no blanks, and their spans are cut at seams of the text.  So every diagnostic for a
syntax error is drawn to the end, and each of its tokens has an underline below the line that shows
it, as long as the token is wide.  But each tab before the token moves the underline one column too
far to the right, and then it does not cover the token.

## Main definitions

* `Text.HasToken text t` — the token `t` is one of the text, or its end.
* `Token.StandsIn text t` — the token `t` stands in the text at its span.
* `Render.ShowsUnderlined` — a drawing shows a line with a labelled underline below it.
* `Render.Covers` — an underline covers a part of the row above it.
* `Render.TokenUnderlined` — where the line of a token is, and how the token is underlined below it.

## Main results

* `parseText_foundIn` — syntax errors are about tokens of their text.
* `Render.exists_fits` — such a token can be underlined.
* `parse_diagnostics_render` — **every syntax error can be shown**.
* `parse_diagnostics_render_tab` — the underline need not cover its token.
-/

namespace Sapling

open Text TokenStream Sapling.Parser

/-! ### The tokens that errors are about -/

/-- The tokens of a text, and its end. -/
def Text.HasToken (text : List Char) (t : Token) : Prop :=
  t ∈ (drain (Lexer.ofText text)).1 ∨ t = .eof (byteLength text)

/-- A token stands in a text at its span, and has no blanks. -/
def Token.StandsIn (text : List Char) (t : Token) : Prop :=
  ∃ before after, text = before ++ (t.literal.toList ++ after) ∧
    t.span = ⟨byteLength before, byteLength before + byteLength t.literal.toList⟩ ∧
    ∀ c ∈ t.literal.toList, ¬ Lexer.isBlank c

/-- The layout of a text has its tokens. -/
theorem Laid.mem_iff {text : List Char} {ts : List Token} (h : Laid 0 text ts) (t : Token) :
    t ∈ (drain (Lexer.ofText text)).1 ↔ t ∈ ts := by
  have hdrain : drain (Lexer.ofText text) = _ := h.drain_eq
  rw [hdrain]

theorem Text.HasToken.standsIn {text : List Char} {t : Token} (h : HasToken text t) :
    t.StandsIn text := by
  obtain ⟨ts, hlaid⟩ := exists_laid text.length 0 (Nat.le_refl _)
  rcases h with ht | rfl
  · obtain ⟨before, after, htext, hspan, hlex, -⟩ :=
      hlaid.exists_split [] rfl t ((hlaid.mem_iff t).1 ht)
    exact ⟨before, after, htext, hspan, hlex.forall_not_isBlank⟩
  · exact ⟨text, [], by simp [Token.eof], rfl, by simp [Token.eof]⟩

/-- **Syntax errors are about tokens of their text.** -/
theorem parseText_foundIn (text : List Char) : AllFoundIn (HasToken text) (parseText text).2 := by
  obtain ⟨ts, hlaid⟩ := exists_laid text.length 0 (Nat.le_refl _)
  have hyields : Yields (HasToken text) fun r : Replay =>
      (∀ t ∈ r.tokens, HasToken text t) ∧ HasToken text r.eof := by
    rintro ⟨ts, e, he⟩ ⟨hts, heof⟩
    cases ts with
    | nil => exact ⟨heof, hts, heof⟩
    | cons t ts =>
      obtain ⟨ht, hts⟩ := List.forall_mem_cons.1 hts
      exact ⟨ht, hts, heof⟩
  rw [hlaid.parseText_eq]
  exact parse_foundIn hyields ⟨fun t ht => Or.inl ((hlaid.mem_iff t).2 ht), Or.inr rfl⟩

/-! ### Tokens can be underlined -/

namespace Render

/-- A token without blanks takes as many columns as it is wide. -/
theorem columns_eq {text : List Char} (h : ∀ c ∈ text, ¬ Lexer.isBlank c) :
    columns text = displayWidth text := by
  have htabs : text.count '\t' = 0 := by
    rw [List.count_eq_zero]
    intro htab
    exact h _ htab (by decide)
  rw [columns, htabs, Nat.zero_mul, Nat.add_zero]

/-- The underline of a token stops where the token does: the line shows all of it. -/
theorem underlineStop_eq {line : Line} {begun literal : List Char} {start : Nat}
    (hstart : start = line.start + byteLength begun)
    (hcontent : literal ≠ [] → ∃ later, line.content = begun ++ literal ++ later) :
    underlineStop line ⟨start, start + byteLength literal⟩ = start + byteLength literal := by
  unfold underlineStop
  cases literal with
  | nil =>
    simp only [byteLength_nil, Nat.add_zero]
    omega
  | cons c literal =>
    obtain ⟨later, hcontent⟩ := hcontent (by simp)
    have hstop : start + byteLength (c :: literal) ≤ line.stop := by
      rw [Line.stop, hcontent, byteLength_append, byteLength_append]
      omega
    simp only [Nat.min_eq_left hstop]
    omega

/-- **A token that stands in a source can be underlined**: a snippet with its span has its place and
fits, and what is underlined is the token. -/
theorem exists_fits {sources : List Source} {source : Source} {s : Snippet} {t : Token}
    (hsource : sources[s.source]? = some source) (hspan : s.span = t.span)
    (ht : t.StandsIn source.chars) :
    ∃ m line begun, mark? sources s = .ok m ∧ m.snippet = s ∧ m.source = source ∧
      m.Fits line begun t.literal.toList ∧
      ∃ before after, source.chars = before ++ after ∧ t.span.start = byteLength before ∧
        m.line = before.count '\n' := by
  obtain ⟨before, after, htext, htspan, hblank⟩ := ht
  obtain ⟨earlier, begun, line, rfl, -, hindex, hline, hstart, hshown⟩ :=
    exists_line before (t.literal.toList ++ after)
  rw [← htext] at hindex hline
  -- no line ends inside the token, since it has no blanks
  have hcontent : t.literal.toList ≠ [] →
      ∃ later, line.content = begun ++ t.literal.toList ++ later := by
    intro hne
    refine hshown _ after rfl hne ?_
    intro c hc
    have := hblank c hc
    constructor <;> (rintro rfl; exact this (by decide))
  have hsspan : s.span = ⟨byteLength (earlier ++ begun),
      byteLength (earlier ++ begun) + byteLength t.literal.toList⟩ := hspan.trans htspan
  have hmark : mark? sources s = .ok ⟨s, source, (earlier ++ begun).count '\n'⟩ := by
    simp only [mark?, hsource, Source.lineIndex?, hsspan, hindex]
  refine ⟨_, line, begun, hmark, rfl, rfl, ⟨?_, hline, ?_, ?_⟩, earlier ++ begun, _,
    htext, by rw [htspan], rfl⟩
  · simp only [hsspan]
    exact hindex
  · simp only [hsspan, hstart, byteLength_append]
    rw [htext, List.append_assoc]
    exact slice?_append _ _ _
  · simp only [hsspan]
    rw [underlineStop_eq (by rw [hstart, byteLength_append]) hcontent, htext]
    exact slice?_append _ _ _

/-- A drawing shows a line of the source and, right below it but for the underlines of other
snippets on that line, an underline: so many blanks, so many signs, and the label, in the style of
the role.  What stands before the line is as wide as what stands before the underline. -/
def ShowsUnderlined (config : Config) (severity : Severity) (drawing : Drawing) (index : Nat)
    (line : Line) (role : SnippetRole) (offset length : Nat) (label : String) : Prop :=
  ∃ width others, (∀ o ∈ others, o.line = index) ∧
    (gutter config width (some (index + 1))).plain.length
      = (gutter config width none).plain.length ∧
    underlinedLine config severity width index line others ++ (gutter config width none).pieces ++
        [.style (config.snippet severity role),
          .text (String.ofList (List.replicate offset ' ')
            ++ String.join (List.replicate length config.underline)
            ++ config.underlineAfter ++ label ++ "\n"),
          .reset]
      <:+: drawing.pieces

/-- An underline covers a part of the row above it.  It has as many blanks before it as what
precedes the part takes columns there, and as many signs as the part takes, at least one. -/
def Covers (begun marked : List Char) (offset length : Nat) : Prop :=
  offset = displayWidth (expandTabs begun) ∧ length = max 1 (displayWidth (expandTabs marked))

instance (begun marked : List Char) (offset length : Nat) :
    Decidable (Covers begun marked offset length) := inferInstanceAs (Decidable (_ ∧ _))

/-- How a token is underlined in a drawing: the line on which it starts is divided into what has
begun before the token, the token, and the rest, and below it there is an underline of a length
after some blanks. -/
structure TokenUnderlined (config : Config) (severity : Severity) (drawing : Drawing)
    (text : List Char) (t : Token) (role : SnippetRole) (label : String) (before : List Char)
    (line : Line) (begun rest : List Char) (offset length : Nat) : Prop where
  /-- The text before the token. -/
  before_eq : takeBytes? t.span.start text = some before
  /-- The line is the one that holds the first byte of the token. -/
  line_eq : (lines text)[before.count '\n']? = some line
  /-- It shows the token. -/
  content_eq : line.content = begun ++ (t.literal.toList ++ rest)
  /-- The token stands there on it where it stands in the text, unless it starts beyond the content
  of the line. -/
  begun_eq : line.start + byteLength begun = min t.span.start line.stop
  /-- Only the end of the text can do that, after a carriage return. -/
  inside : t.literal ≠ "" → t.span.start ≤ line.stop
  /-- The line is shown, and the underline below it. -/
  shown : ShowsUnderlined config severity drawing (before.count '\n') line role offset length label
  /-- The underline is as long as the token is wide, or of length one if that is more. -/
  length_eq : length = max 1 (displayWidth t.literal.toList)
  /-- The blanks are the columns before the token, and one more for each tab. -/
  offset_eq : offset = displayWidth (expandTabs begun) + begun.count '\t'
    + if line.stop < t.span.start then 1 else 0
  /-- So the underline covers the token just if no tab stands before it. -/
  covers_iff : Covers begun t.literal.toList offset length ↔
    '\t' ∉ begun ∧ t.span.start ≤ line.stop

/-- A line with underlines ends with the last of them. -/
theorem underlinedLine_append {config : Config} {severity : Severity} {m : Mark} {line : Line}
    {begun marked : List Char} (h : m.Fits line begun marked) (width index : Nat)
    (others : List Mark) :
    underlinedLine config severity width index line (others ++ [m])
      = underlinedLine config severity width index line others ++
        (gutter config width none).pieces ++
        [.style (config.snippet severity m.snippet.role),
          .text (blanks (columns begun)
            ++ String.join (List.replicate (max (columns marked) 1) config.underline)
            ++ config.underlineAfter ++ m.snippet.label ++ "\n"),
          .reset] := by
  have hgutter : (gutter config width none).failure = none := rfl
  simp only [underlinedLine, underlines, List.flatMap_append, List.flatMap_cons, List.flatMap_nil,
    underline_eq h, Drawing.append_of_ok hgutter, Drawing.styled, List.append_nil,
    List.append_assoc, List.cons_append]

/-- A token without blanks is drawn as it is. -/
theorem expandTabs_eq {text : List Char} (h : ∀ c ∈ text, ¬ Lexer.isBlank c) :
    expandTabs text = text := by
  have hself : ∀ c ∈ text, (if c = '\t' then tab else [c]) = [c] := by
    intro c hc
    rw [if_neg]
    rintro rfl
    exact h _ hc (by decide)
  rw [expandTabs, List.flatMap_def, List.map_congr_left hself, ← List.flatMap_def,
    List.flatMap_singleton']

/-- An underline that starts one column later for each tab covers a token just if there are no tabs,
and the token does not start beyond the content of its line. -/
theorem covers_iff {begun literal : List Char} (h : ∀ c ∈ literal, ¬ Lexer.isBlank c)
    (start stop : Nat) :
    Covers begun literal
        (displayWidth (expandTabs begun) + begun.count '\t' + if stop < start then 1 else 0)
        (max 1 (displayWidth literal)) ↔
      '\t' ∉ begun ∧ start ≤ stop := by
  rw [Covers, expandTabs_eq h, and_iff_left rfl, ← List.count_eq_zero]
  split <;> omega

/-- **A snippet at a token is underlined** below the line in which the token starts, if all snippets
of its diagnostic fit. -/
theorem exists_tokenUnderlined {config : Config} {sources : List Source} {source : Source}
    {d : Diagnostic} {s : Snippet} {t : Token}
    (hfits : ∀ s ∈ d.snippets, ∃ m, mark? sources s = .ok m ∧
      ∃ line begun marked, m.Fits line begun marked)
    (hs : s ∈ d.snippets) (hsource : sources[s.source]? = some source) (hspan : s.span = t.span)
    (ht : t.StandsIn source.chars) :
    ∃ before line begun rest offset length, TokenUnderlined config d.severity
      (d.render config sources) source.chars t s.role s.label before line begun rest offset
      length := by
  obtain ⟨m, line, measured, hmark, rfl, rfl, hfit, before, after, hchars, hstart, hindex⟩ :=
    exists_fits hsource hspan ht
  obtain ⟨begun, rest, hcontent, hbegun, rfl⟩ := hfit.exists_parts
  obtain ⟨width, others, hwidth, hothers, hinfix⟩ :
      Shows config d.severity m line (d.render config sources).pieces :=
    (render_of_fits hfits).2 _ hs m hmark line _ _ hfit
  obtain ⟨-, -, -, -, hblank⟩ := ht
  have hnone : ((none : Option Nat).elim "" Numeral.decimal).length ≤ width := by simp
  have hnumber : ((some (m.line + 1)).elim "" Numeral.decimal).length ≤ width := hwidth
  have hlength : (gutter config width (some (m.line + 1))).plain.length
      = (gutter config width none).plain.length :=
    (length_gutter hnumber).trans (length_gutter hnone).symm
  have hline := hfit.line_eq
  rw [underlinedLine_append hfit, columns_eq hblank, Nat.max_comm, columns_begun, hspan] at hinfix
  rw [hspan] at hbegun
  rw [hindex] at hinfix hothers hline hlength
  have hinside : t.literal ≠ "" → t.span.start ≤ line.stop := by
    refine fun hne => Nat.le_of_not_lt fun hbeyond => hne ?_
    have hstop : line.stop = line.start + byteLength line.content := rfl
    have hempty : byteLength t.literal.toList = 0 := by
      rw [hcontent, byteLength_append, byteLength_append] at hstop
      omega
    simpa using byteLength_eq_zero.1 hempty
  have hbefore : takeBytes? t.span.start m.source.chars = some before := by
    rw [hstart, hchars]
    exact takeBytes?_append _ _
  exact ⟨before, line, begun, rest, _, _, hbefore, hline, hcontent, hbegun, hinside,
    ⟨width, others, hothers, hlength, hinfix⟩, rfl, rfl, covers_iff hblank _ _⟩

end Render

/-! ### Diagnostics for syntax errors -/

/-- The snippets of a syntax error are about tokens: the primary one about the token that its
message speaks of, the secondary one about an opening parenthesis. -/
theorem SyntaxError.FoundIn.snippets {T : Token → Prop} {e : SyntaxError} (h : e.FoundIn T)
    (source : Nat) : ∀ sn ∈ (e.toDiagnostic source).snippets, sn.source = source ∧
      ∃ t, T t ∧ sn.span = t.span ∧
        (sn.role = .primary → ∃ cause : Cause, sn.label = cause.message ∧ cause.Names t) ∧
        (sn.role = .secondary → t.kind = .leftParen) := by
  intro sn hsn
  rcases List.mem_cons.1 hsn with rfl | hsn
  · obtain ⟨t, ht, hspan, hnames⟩ := h.found
    exact ⟨rfl, t, ht, hspan.symm, fun _ => ⟨e.cause, rfl, hnames⟩, nofun⟩
  · obtain ⟨opening, hopening, rfl⟩ := List.mem_map.1 hsn
    obtain ⟨t, ht, hspan, hkind⟩ := h.unclosed opening (by simpa using hopening)
    exact ⟨rfl, t, ht, hspan.symm, nofun, fun _ => hkind⟩

/-- **Every syntax error can be shown.**  Whatever text is parsed in a session, the diagnostics that
this adds are drawn to the end.  Each of their snippets has the span of a token, or of the end of
the text.  The line in which the token starts is shown, and below it an underline that is as long as
the token is wide, or of length one if that is more.  It stands after the columns before the token,
and one more for each tab among them; for the end of the text, one more again if it comes after a
carriage return.  Only without any more it covers the token. -/
theorem parse_diagnostics_render (s : Session) (name text : String) :
    let chars := text.toList
    let sources := (s.parse name text).2.sources
    ∀ d ∈ (s.parse name text).2.diagnostics.drop s.diagnostics.length,
      (d.render .standard sources).failure = none ∧
      ∀ sn ∈ d.snippets, ∃ t, HasToken chars t ∧ sn.span = t.span ∧
        (sn.role = .primary → ∃ cause : SyntaxError.Cause,
          sn.label = cause.message ∧ cause.Names t) ∧
        (sn.role = .secondary → t.kind = .leftParen) ∧
        ∃ before line begun rest offset length, Render.TokenUnderlined .standard d.severity
          (d.render .standard sources) chars t sn.role sn.label before line begun rest offset
          length := by
  intro chars sources d hd
  have hdiagnostics : (s.parse name text).2.diagnostics
      = s.diagnostics ++ (parseText chars).2.map (SyntaxError.toDiagnostic s.sources.length) := rfl
  -- the text was added to the sources under the index that the diagnostics name
  have hsources : sources[s.sources.length]? = some ⟨name, none, text⟩ := by
    show (s.sources ++ [_])[s.sources.length]? = _
    simp
  rw [hdiagnostics, List.drop_left] at hd
  obtain ⟨e, he, rfl⟩ := List.mem_map.1 hd
  have hsnippets := (parseText_foundIn chars e he).snippets s.sources.length
  have hfits : ∀ sn ∈ (e.toDiagnostic s.sources.length).snippets, ∃ m,
      Render.mark? sources sn = .ok m ∧ ∃ line begun marked, m.Fits line begun marked := by
    intro sn hsn
    obtain ⟨hsource, t, ht, hspan, -⟩ := hsnippets sn hsn
    rw [← hsource] at hsources
    obtain ⟨m, line, begun, hmark, -, -, hfit, -⟩ := Render.exists_fits hsources hspan ht.standsIn
    exact ⟨m, hmark, line, begun, _, hfit⟩
  refine ⟨(Render.render_of_fits hfits).1, ?_⟩
  intro sn hsn
  obtain ⟨hsource, t, ht, hspan, hprimary, hsecondary⟩ := hsnippets sn hsn
  rw [← hsource] at hsources
  exact ⟨t, ht, hspan, hprimary, hsecondary,
    Render.exists_tokenUnderlined hfits hsn hsources hspan ht.standsIn⟩

/-- In the text `(`, an expression and a closing parenthesis are missing at the end. -/
theorem parseText_paren : (parseText ['(']).2 =
    [⟨.noOperand .eof, ⟨1, 1⟩, none⟩, ⟨.unexpected .rightParen .eof, ⟨1, 1⟩, some ⟨0, 1⟩⟩] := by
  let t : Token := ⟨.leftParen, "(", ⟨0, 1⟩⟩
  let missing : SyntaxError := ⟨.noOperand .eof, ⟨1, 1⟩, none⟩
  let unclosed : SyntaxError := ⟨.unexpected .rightParen .eof, ⟨1, 1⟩, some ⟨0, 1⟩⟩
  let w (ts : List Token) : Window Replay := .along (Token.kind_eof 1) ts
  have hlex : Lexeme .leftParen ['('] := .spelled (.symbol (s := "(") rfl)
  have hlaid : Laid 0 ['('] [t] := .token .nil hlex (fun _ _ h => h) (.done .nil)
  have hinner : expression .lowest (w [t]).advance = .mistake (w []) .hole missing := by
    rw [expression_eq]
    rfl
  have hgroup : Reading.closing (w [t]).current.span Expr.hole (.mistake (w []) .hole missing)
      = ⟨.hole, [missing, unclosed], w []⟩ := rfl
  have hsuffixes : suffixes .lowest .hole (w []) = .here (w []) .hole := by
    rw [suffixes_eq]
    rfl
  have hexpression : expression .lowest (w [t]) = ⟨.hole, [missing, unclosed], w []⟩ := by
    rw [expression_eq, show Opening.ofToken (w [t]).current = .group from rfl]
    simp only [hinner, hgroup, hsuffixes]
    rfl
  have hstatement : statement (w [t])
      = ⟨some (.expression t .hole), [missing, unclosed], w []⟩ := by
    rw [statement_eq_bareExpression (by decide) (by decide), bareExpression_eq, hexpression]
    rfl
  have hend : statements (w []).advance = .here (w []) [] := by
    rw [statements_eq]
    rfl
  rw [hlaid.parseText_eq]
  show (statements (w [t])).errors = _
  rw [statements_eq, if_neg (show (w [t]).current.kind ≠ .eof by decide), hstatement]
  simp only [hend]
  rfl

/-- The second diagnostic for the text `(` is drawn to the end; it has a snippet for the end of the
text, and one for the parenthesis. -/
theorem parse_diagnostics_render_paren :
    let parsed := (Session.empty.parse "input" "(").2
    let d := SyntaxError.toDiagnostic 0 ⟨.unexpected .rightParen .eof, ⟨1, 1⟩, some ⟨0, 1⟩⟩
    d ∈ parsed.diagnostics.drop 0 ∧ d.snippets.length = 2 ∧
      (d.render .standard parsed.sources).failure = none := by
  intro parsed d
  have hdiagnostics : parsed.diagnostics
      = (parseText ['(']).2.map (SyntaxError.toDiagnostic 0) := rfl
  have hd : d ∈ parsed.diagnostics.drop 0 := by
    rw [hdiagnostics, parseText_paren]
    simp [d]
  exact ⟨hd, rfl, (parse_diagnostics_render Session.empty "input" "(" d hd).1⟩

/-- A text of one token that starts no operand has one syntax error, about that token. -/
theorem errors_alone {text : List Char} {t : Token} (hlaid : Laid 0 text [t])
    (hopening : Opening.ofToken t = .nothing) (heof : t.kind ≠ .eof) (hlet : t.kind ≠ .letWord)
    (hreturn : t.kind ≠ .returnWord) :
    (parseText text).2 = [⟨.noOperand t.kind, t.span, none⟩] := by
  let w (ts : List Token) : Window Replay := .along (Token.kind_eof (byteLength text)) ts
  have hexpression : expression .lowest (w [t])
      = .mistake (w [t]) .hole ⟨.noOperand t.kind, t.span, none⟩ := by
    rw [expression_eq, show Opening.ofToken (w [t]).current = .nothing from hopening]
    rfl
  have hstatement : statement (w [t])
      = ⟨some (.expression t .hole), [⟨.noOperand t.kind, t.span, none⟩], w [t]⟩ := by
    rw [statement_eq_bareExpression hlet hreturn, bareExpression_eq, hexpression]
    rfl
  have hend : statements (w [t]).advance = .here (w []) [] := by
    rw [statements_eq]
    rfl
  rw [hlaid.parseText_eq]
  show (statements (w [t])).errors = _
  rw [statements_eq, if_neg (show (w [t]).current.kind ≠ .eof from heof), hstatement]
  simp only [hend]
  rfl

/-- In the text of a tab and `*`, an operand is missing.  The line is drawn with four blanks for the
tab, and the underline of the `*` has five before it, so it does not cover the `*`. -/
theorem parse_diagnostics_render_tab :
    let parsed := (Session.empty.parse "input" "\t*").2
    let d := SyntaxError.toDiagnostic 0 ⟨.noOperand .asterisk, ⟨1, 2⟩, none⟩
    let label := "no prefix parse function for * found"
    parsed.diagnostics = [d] ∧
      (d.render .standard parsed.sources).plain
        = "Error: syntax error\nIn input:1:2\n1 │     *\n  │      ^ " ++ label ++ "\n\n" ∧
      Render.ShowsUnderlined .standard .error (d.render .standard parsed.sources) 0
        ⟨0, ['\t', '*'], []⟩ .primary 5 1 label ∧
      ¬ Render.Covers ['\t'] ['*'] 5 1 := by
  intro parsed d label
  let t : Token := ⟨.asterisk, "*", ⟨1, 2⟩⟩
  have hlex : Lexeme .asterisk ['*'] := .spelled (.symbol (s := "*") rfl)
  have hlaid : Laid 0 ['\t', '*'] [t] :=
    .token (.blank (by decide) .nil) hlex (fun _ _ h => h) (.done .nil)
  have herrors : (parseText ['\t', '*']).2 = [⟨.noOperand .asterisk, ⟨1, 2⟩, none⟩] :=
    errors_alone hlaid rfl (by decide) (by decide) (by decide)
  have hdiagnostics : parsed.diagnostics = [d] := by
    show (parseText ['\t', '*']).2.map (SyntaxError.toDiagnostic 0) = [d]
    rw [herrors]
    rfl
  have hsources : parsed.sources = [⟨"input", none, "\t*"⟩] := rfl
  refine ⟨hdiagnostics, ?_, ?_, by decide⟩
  · rw [hsources]
    decide +kernel
  · rw [hsources]
    exact ⟨1, [], by simp, by decide, by decide +kernel⟩

end Sapling
