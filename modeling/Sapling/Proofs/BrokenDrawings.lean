import Sapling.Proofs.Rendering

/-!
# Diagnostics that are not drawn to the end

A drawing of a diagnostic is broken off in one of three ways.  A snippet may name no source, or
start outside the source that it names; the first such snippet decides, and only the header is drawn
then.  Otherwise snippets are drawn line by line, and every line that is drawn is a line of its
source.  Only an underline that would start or stop inside a character breaks the drawing off there.

## Main definitions

* `Snippet.Valid` — the source of a snippet exists, and the snippet starts in it.
* `Snippet.Cut` — the underline of a snippet would start or stop inside a character.
* `Drawing.CutIff d p` — the drawing breaks off inside a character just if `p`, and is whole
  otherwise.

## Main results

* `Drawing.CutIff.append`, `Drawing.CutIff.concat_map` — drawings are whole just if all parts are.
* `Render.block_cutIff` — blocks of valid snippets break off just where a snippet is cut.
* `render_failure` — all the ways in which diagnostics are not drawn to the end.
-/

namespace Sapling

open Text

/-! ### Drawings that break off inside a character -/

namespace Drawing

/-- The drawing breaks off inside a character just if something is the case, and is whole otherwise.
-/
structure CutIff (d : Drawing) (p : Prop) : Prop where
  /-- If so, it breaks off. -/
  cut : p → d.failure = some .insideCharacter
  /-- If not, it is whole. -/
  whole : ¬ p → d.failure = none

namespace CutIff

variable {d e : Drawing} {p q : Prop}

/-- Whole drawings are cut in no case. -/
theorem of_whole (h : d.failure = none) : d.CutIff False := ⟨False.elim, fun _ => h⟩

theorem congr (h : d.CutIff p) (hpq : p ↔ q) : d.CutIff q :=
  ⟨fun hq => h.cut (hpq.2 hq), fun hq => h.whole (mt hpq.1 hq)⟩

/-- **Of two drawings, the first that is cut breaks both off.** -/
theorem append (hd : d.CutIff p) (he : e.CutIff q) : (d ++ e).CutIff (p ∨ q) := by
  by_cases hp : p
  · have hcut := hd.cut hp
    rw [append_of_failure hcut]
    exact ⟨fun _ => hcut, fun hnone => absurd (Or.inl hp) hnone⟩
  · rw [append_of_ok (hd.whole hp)]
    refine ⟨?_, fun hnone => he.whole fun hq => hnone (Or.inr hq)⟩
    rintro (hp' | hq)
    · exact absurd hp' hp
    · exact he.cut hq

/-- A whole drawing before another one does not matter. -/
theorem whole_append (hd : d.failure = none) (he : e.CutIff q) : (d ++ e).CutIff q :=
  ((of_whole hd).append he).congr (by simp)

/-- A whole drawing after another one does not matter. -/
theorem append_whole (hd : d.CutIff p) (he : e.failure = none) : (d ++ e).CutIff p :=
  (hd.append (of_whole he)).congr (by simp)

/-- **Of drawings one after the other, one that is cut breaks all off.** -/
theorem concat_map {α : Type} {f : α → Drawing} {P : α → Prop} {as : List α}
    (h : ∀ a ∈ as, (f a).CutIff (P a)) : (concat (as.map f)).CutIff (∃ a ∈ as, P a) := by
  induction as with
  | nil => exact (of_whole rfl).congr (by simp)
  | cons a as ih =>
    obtain ⟨ha, has⟩ := List.forall_mem_cons.1 h
    exact (ha.append (ih has)).congr (by simp)

end CutIff

end Drawing

/-! ### Snippets -/

namespace Snippet

/-- The source of the snippet exists, and the snippet starts in it, or where it ends. -/
def Valid (sources : List Source) (s : Snippet) : Prop :=
  ∃ source ∈ sources[s.source]?, s.span.start ≤ source.size

instance (sources : List Source) (s : Snippet) : Decidable (s.Valid sources) :=
  inferInstanceAs (Decidable (∃ source ∈ sources[s.source]?, s.span.start ≤ source.size))

/-- The snippet starts inside a character, or its underline would stop inside one: where the snippet
stops, but not beyond the content of the line that it starts on, and not before its start. -/
def Cut (sources : List Source) (s : Snippet) : Prop :=
  ∃ source index line, sources[s.source]? = some source ∧
    source.lineIndex? s.span.start = some index ∧ source.lines[index]? = some line ∧
      (¬ IsBoundary source.chars s.span.start ∨
        ¬ IsBoundary source.chars (max (min s.span.stop line.stop) s.span.start))

end Snippet

namespace Render

variable {config : Config} {severity : Severity} {sources : List Source} {s : Snippet} {m : Mark}

/-- **Valid snippets have a place.** -/
theorem exists_mark (h : s.Valid sources) : ∃ m, mark? sources s = .ok m := by
  obtain ⟨source, hsource, hstart⟩ := h
  have hindex : source.lineIndex? s.span.start
      = some (source.lines.tail.countP (·.start ≤ s.span.start)) := if_pos hstart
  refine ⟨⟨s, source, source.lines.tail.countP (·.start ≤ s.span.start)⟩, ?_⟩
  simp only [mark?, Option.mem_def.1 hsource, hindex]

/-- **Snippets that are not valid have none**, because the source is missing, or because they start
beyond its end. -/
theorem mark_of_not_valid (h : ¬ s.Valid sources) :
    mark? sources s
      = .error (if sources[s.source]? = none then .sourceMissing else .outOfBounds) := by
  unfold mark?
  cases hsource : sources[s.source]? with
  | none => rfl
  | some source =>
    have hstart : ¬ s.span.start ≤ source.size := fun hle => h ⟨source, hsource, hle⟩
    have hindex : source.lineIndex? s.span.start = none := if_neg hstart
    simp only [hindex]
    rfl

/-- The first snippet without a place decides. -/
theorem marks_of_first {earlier later : List Snippet} {failure : Drawing.Failure}
    (hearlier : ∀ e ∈ earlier, ∃ m, mark? sources e = .ok m)
    (hs : mark? sources s = .error failure) :
    marks? sources (earlier ++ s :: later) = .error failure := by
  induction earlier with
  | nil =>
    rw [List.nil_append, marks?, List.mapM_cons, hs]
    rfl
  | cons e earlier ih =>
    obtain ⟨⟨m, hm⟩, hearlier⟩ := List.forall_mem_cons.1 hearlier
    rw [List.cons_append, marks?, List.mapM_cons, hm, ← marks?, ih hearlier]
    rfl

/-! ### Rows and blocks of valid snippets -/

/-- Whether a snippet is cut can be seen at its place. -/
theorem cut_iff {line : Line} (hm : mark? sources m.snippet = .ok m)
    (hline : m.source.lines[m.line]? = some line) :
    m.snippet.Cut sources ↔ ¬ IsBoundary m.source.chars m.snippet.span.start ∨
      ¬ IsBoundary m.source.chars (underlineStop line m.snippet.span) := by
  obtain ⟨-, hsource, hindex⟩ := mark_eq_ok hm
  constructor
  · rintro ⟨source, index, line', hsource', hindex', hline', hcut⟩
    obtain rfl : m.source = source := Option.some.inj (hsource.symm.trans hsource')
    obtain rfl : m.line = index := Option.some.inj (hindex.symm.trans hindex')
    obtain rfl : line = line' := Option.some.inj (hline.symm.trans hline')
    exact hcut
  · exact fun hcut => ⟨m.source, m.line, line, hsource, hindex, hline, hcut⟩

/-- The underline of a snippet is broken off just if the snippet is cut. -/
theorem underline_cutIff {line : Line} (hm : mark? sources m.snippet = .ok m)
    (hline : m.source.lines[m.line]? = some line) :
    (underline config severity line m).CutIff (m.snippet.Cut sources) := by
  -- the line starts at a boundary, at or before the snippet
  obtain ⟨line', before, after, hline', htext, hbegin, hle⟩ :=
    exists_line_of_lineIndex? (mark_eq_ok hm).2.2
  obtain rfl : line' = line := Option.some.inj (hline'.symm.trans hline)
  have hboundary : IsBoundary m.source.chars line'.start := ⟨before, after, htext, hbegin.symm⟩
  have hstop : m.snippet.span.start ≤ underlineStop line' m.snippet.span := Nat.le_max_right _ _
  refine Drawing.CutIff.congr ?_ (cut_iff hm hline).symm
  by_cases hstart : IsBoundary m.source.chars m.snippet.span.start
  · obtain ⟨begun, hbegun⟩ := exists_slice?_iff.2 ⟨hle, hboundary, hstart⟩
    by_cases hend : IsBoundary m.source.chars (underlineStop line' m.snippet.span)
    · obtain ⟨marked, hmarked⟩ := exists_slice?_iff.2 ⟨hstop, hstart, hend⟩
      simp only [underline, hbegun, hmarked]
      exact (Drawing.CutIff.of_whole rfl).congr (by simp [hstart, hend])
    · have hmarked : slice? m.source.chars m.snippet.span.start
          (underlineStop line' m.snippet.span) = none := slice?_eq_none fun h => hend h.2
      simp only [underline, hbegun, hmarked]
      exact ⟨fun _ => rfl, fun hwhole => absurd (Or.inr hend) hwhole⟩
  · have hbegun : slice? m.source.chars line'.start m.snippet.span.start = none :=
      slice?_eq_none fun h => hstart h.2
    simp only [underline, hbegun]
    exact ⟨fun _ => rfl, fun hwhole => absurd (Or.inl hstart) hwhole⟩

/-- Marks at the places of their snippets, all in one source. -/
def Together (sources : List Source) (source : Source) (marks : List Mark) : Prop :=
  ∀ m ∈ marks, mark? sources m.snippet = .ok m ∧ m.source = source

/-- A row is broken off just if a snippet on its line is cut. -/
theorem row_cutIff {source : Source} {marks : List Mark} {index width : Nat} {line : Line}
    (h : Together sources source marks) (hline : source.lines[index]? = some line) :
    (row config severity width source.lines marks index).CutIff
      (∃ m ∈ marks, m.line = index ∧ m.snippet.Cut sources) := by
  have hbelow : ∀ m ∈ marks.filter (·.line = index),
      (gutter config width none ++ underline config severity line m).CutIff
        (m.snippet.Cut sources) := by
    intro m hm
    obtain ⟨hmem, hindex⟩ := List.mem_filter.1 hm
    obtain rfl : m.line = index := of_decide_eq_true hindex
    obtain ⟨hmark, rfl⟩ := h m hmem
    exact .whole_append rfl (underline_cutIff hmark hline)
  rw [row, hline]
  refine .whole_append rfl (.whole_append rfl ((Drawing.CutIff.concat_map hbelow).congr ?_))
  simp [List.mem_filter, and_assoc]

/-- **Blocks are broken off just if one of their snippets is cut.**  All lines of a block are lines
of the source, and the lines of its snippets are among them. -/
theorem block_cutIff {source : Source} {cluster : Cluster Mark}
    (h : Together sources source cluster.items) (hcovers : Cluster.Covers Mark.range cluster) :
    (block config severity cluster).CutIff (∃ m ∈ cluster.items, m.snippet.Cut sources) := by
  unfold block blockShowing
  split
  · next hitems => exact (Drawing.CutIff.of_whole rfl).congr (by simp [hitems])
  · next first later hitems =>
    obtain ⟨hfirst, rfl⟩ := h first (by simp [hitems])
    have hrows (width : Nat) :
        ∀ i ∈ (shownLines config cluster.cover first.source.lines.length).offsets,
          (row config severity width first.source.lines cluster.items i).CutIff
            (∃ m ∈ cluster.items, m.line = i ∧ m.snippet.Cut sources) :=
      fun i hi => row_cutIff h (List.getElem?_eq_getElem (mem_shownLines hi))
    -- no mark is left out: its line is one of those that are shown
    have hshown : ∀ m ∈ cluster.items,
        m.line ∈ (shownLines config cluster.cover first.source.lines.length).offsets := by
      intro m hm
      obtain ⟨hmark, hsource⟩ := h m hm
      obtain ⟨line, -, -, hline, -⟩ := exists_line_of_lineIndex? (mark_eq_ok hmark).2.2
      exact line_mem_shownLines hcovers hm (hsource ▸ (List.getElem?_eq_some_iff.1 hline).1)
    have hhead : (blockHead config first).failure = none :=
      failure_blockHead (mark_eq_ok hfirst).2.2
    refine .whole_append hhead ((Drawing.CutIff.concat_map (hrows _)).congr ?_)
    constructor
    · rintro ⟨i, -, m, hm, -, hcut⟩
      exact ⟨m, hm, hcut⟩
    · rintro ⟨m, hm, hcut⟩
      exact ⟨m.line, hshown m hm, m, hm, rfl, hcut⟩

/-! ### Diagnostics of valid snippets -/

/-- The blocks for marks are broken off just if the snippet of one is cut. -/
theorem blocks_cutIff {marks : List Mark} (h : ∀ m ∈ marks, mark? sources m.snippet = .ok m) :
    (blocks config severity marks).CutIff (∃ m ∈ marks, m.snippet.Cut sources) := by
  have hsources : ∀ group ∈ marksBySource marks,
      ∃ source, ∀ m ∈ group, m ∈ marks ∧ m.source = source :=
    fun group => exists_source_of_mem fun m hm => (mark_eq_ok (h m hm)).2.1
  have hgroups : ∀ group ∈ marksBySource marks,
      (Drawing.concat ((Cluster.gather Mark.range group).map (block config severity))).CutIff
        (∃ cluster ∈ Cluster.gather Mark.range group,
          ∃ m ∈ cluster.items, m.snippet.Cut sources) := by
    intro group hgroup
    obtain ⟨source, hsource⟩ := hsources group hgroup
    refine .concat_map fun cluster hcluster => ?_
    have htogether : Together sources source cluster.items := by
      intro m hm
      obtain ⟨hmarks, heq⟩ := hsource m ((Cluster.mem_gather _ _ m).1 ⟨cluster, hcluster, hm⟩)
      exact ⟨h m hmarks, heq⟩
    exact block_cutIff htogether
      (Cluster.covers_gather (fun m _ => m.start_le_stop) cluster hcluster)
  -- each mark is in one cluster of one group
  refine (Drawing.CutIff.concat_map hgroups).congr ?_
  constructor
  · rintro ⟨group, hgroup, cluster, hcluster, m, hm, hcut⟩
    obtain ⟨source, hsource⟩ := hsources group hgroup
    have hmem := (Cluster.mem_gather Mark.range group m).1 ⟨cluster, hcluster, hm⟩
    exact ⟨m, (hsource m hmem).1, hcut⟩
  · rintro ⟨m, hm, hcut⟩
    obtain ⟨group, hgroup, hmem⟩ := mem_marksBySource hm
    obtain ⟨cluster, hcluster, hitem⟩ := (Cluster.mem_gather Mark.range group m).2 hmem
    exact ⟨group, hgroup, cluster, hcluster, m, hitem, hcut⟩

/-- **Diagnostics of valid snippets are broken off just if a snippet is cut.** -/
theorem render_cutIff {d : Diagnostic} (h : ∀ s ∈ d.snippets, s.Valid sources) :
    (d.render config sources).CutIff (∃ s ∈ d.snippets, s.Cut sources) := by
  obtain ⟨marks, hmarks, hsnippets, hplaces⟩ := marks_of_forall fun s hs => exists_mark (h s hs)
  have hnotes : (Drawing.concat (d.notes.map (note config))).failure = none := by
    rw [Drawing.concat_of_ok (failure_notes config d.notes)]
  have hcut : (d.render config sources).CutIff (∃ m ∈ marks, m.snippet.Cut sources) := by
    rw [Diagnostic.render_of_marks hmarks]
    exact .whole_append rfl (((blocks_cutIff hplaces).append_whole hnotes).append_whole rfl)
  refine hcut.congr ?_
  rw [← hsnippets]
  constructor
  · rintro ⟨m, hm, hcut⟩
    exact ⟨m.snippet, List.mem_map_of_mem hm, hcut⟩
  · rintro ⟨s, hs, hcut⟩
    obtain ⟨m, hm, rfl⟩ := List.mem_map.1 hs
    exact ⟨m, hm, hcut⟩

/-- **If a snippet is not valid, only the header is drawn.** -/
theorem render_of_not_valid {d : Diagnostic} {earlier later : List Snippet}
    (hsnippets : d.snippets = earlier ++ s :: later) (hearlier : ∀ e ∈ earlier, e.Valid sources)
    (hs : ¬ s.Valid sources) :
    d.render config sources = ⟨(header config d).pieces,
      some (if sources[s.source]? = none then .sourceMissing else .outOfBounds)⟩ := by
  have hmarks : marks? sources (earlier ++ s :: later) = _ :=
    marks_of_first (fun e he => exists_mark (hearlier e he)) (mark_of_not_valid hs)
  rw [Diagnostic.render_of_error (hsnippets ▸ hmarks)]
  have hheader : (header config d).failure = none := rfl
  rw [Drawing.append_of_ok hheader]
  simp only [Drawing.fail, List.append_nil]

end Render

/-! ### All failures -/

open Render in
/-- **When rendering fails, exactly.**  If there are snippets that are not valid, the first of them
decides: the error tells whether its source is missing, and just the header line is drawn.  If all
are valid, no error is reported.  Then the drawing breaks off inside a character just if a snippet
is cut, and is whole otherwise. -/
theorem render_failure (config : Config) (sources : List Source) (d : Diagnostic) :
    let drawing := d.render config sources
    (∀ s, d.snippets.find? (fun s => ¬ s.Valid sources) = some s →
        drawing.failure.bind Drawing.Failure.error?
            = (if sources[s.source]? = none then some (.notFound, "source missing")
              else some (.invalidInput, "span out of bounds")) ∧
          drawing.pieces = (header config d).pieces ∧
          drawing.plain
            = d.severity.name ++ ":" ++ d.message.elim "" (fun message => " " ++ message) ++ "\n") ∧
      ((∀ s ∈ d.snippets, s.Valid sources) →
        drawing.failure.bind Drawing.Failure.error? = none ∧
          (drawing.failure = some .insideCharacter ↔ ∃ s ∈ d.snippets, s.Cut sources) ∧
          (drawing.failure = none ↔ ∀ s ∈ d.snippets, ¬ s.Cut sources)) := by
  intro drawing
  refine ⟨?_, ?_⟩
  · intro s hfind
    obtain ⟨hs, earlier, later, hsnippets, hearlier⟩ := List.find?_eq_some_iff_append.1 hfind
    have hdrawing : drawing = _ := render_of_not_valid hsnippets
      (fun e he => by simpa using hearlier e he) (of_decide_eq_true hs)
    rw [hdrawing]
    refine ⟨?_, rfl, ?_⟩
    · split <;> rfl
    · show String.join ["", d.severity.name ++ ":", "",
        d.message.elim "" (fun message => " " ++ message) ++ "\n"] = _
      simp [String.join, String.append_assoc]
  · intro hvalid
    have hcut : drawing.CutIff (∃ s ∈ d.snippets, s.Cut sources) := render_cutIff hvalid
    by_cases h : ∃ s ∈ d.snippets, s.Cut sources
    · have hfailure := hcut.cut h
      rw [hfailure]
      exact ⟨rfl, by simpa using h, by simpa using h⟩
    · have hfailure := hcut.whole h
      rw [hfailure]
      exact ⟨rfl, by simpa using h, by simpa using h⟩

/-- Snippets of the source `é`, a letter of two bytes.  One that starts after it is not valid, and is
reported, though the source of a later one is missing.  One that starts inside the letter is valid,
and cut. -/
theorem render_failure_letter :
    let sources : List Source := [⟨"main", none, "é"⟩]
    let whole : Snippet := ⟨"here", .primary, 0, ⟨0, 2⟩⟩
    let beyond : Snippet := ⟨"here", .primary, 0, ⟨3, 4⟩⟩
    let missing : Snippet := ⟨"here", .primary, 1, ⟨0, 2⟩⟩
    let inside : Snippet := ⟨"here", .primary, 0, ⟨1, 2⟩⟩
    let invalid : Diagnostic := ⟨.error, none, [whole, beyond, missing], []⟩
    let valid : Diagnostic := ⟨.error, none, [whole, inside], []⟩
    invalid.snippets.find? (fun s => ¬ s.Valid sources) = some beyond ∧
      (invalid.render .standard sources).failure.bind Drawing.Failure.error?
        = some (.invalidInput, "span out of bounds") ∧
      (invalid.render .standard sources).plain = "Error:\n" ∧
      (∀ s ∈ valid.snippets, s.Valid sources) ∧
      (valid.render .standard sources).failure = some .insideCharacter := by
  intro sources whole beyond missing inside invalid valid
  have hfind : invalid.snippets.find? (fun s => ¬ s.Valid sources) = some beyond := by decide
  have hvalid : ∀ s ∈ valid.snippets, s.Valid sources := by decide
  have hcut : inside.Cut sources :=
    ⟨⟨"main", none, "é"⟩, 0, ⟨0, ['é'], []⟩, rfl, by decide, by decide, Or.inl (by decide)⟩
  obtain ⟨herror, -, hplain⟩ := (render_failure .standard sources invalid).1 beyond hfind
  obtain ⟨-, hinside, -⟩ := (render_failure .standard sources valid).2 hvalid
  exact ⟨hfind, herror, hplain, hvalid, hinside.2 ⟨inside, by simp [valid], hcut⟩⟩

end Sapling
