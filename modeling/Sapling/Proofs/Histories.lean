import Sapling.Proofs.BrokenDrawings
import Sapling.Proofs.ErrorDiagnostics

/-!
# Histories of a session

A session goes through steps of any kinds, in any order.  Each step adds one source at most, and
some diagnostics; nothing that is there already is changed or taken away.  So a source keeps the
index that it got, and a diagnostic whose sources were there when it was drawn is drawn the same way
ever after.

A step that parses a text answers what parsing the text alone gives.  Of the steps before it only
their number of sources matters, for it is the index that its diagnostics name.

## Main definitions

* `Session.Action`, `Session.Answer` — the steps that a session can take, and what they answer.
* `Session.perform`, `Session.performAll` — one step, and many.
* `Session.Action.source?`, `Session.Action.reported` — what a step adds.
* `Session.Action.Answers` — what a step answers.

## Main results

* `reportMany_signals` — reporting many signals an error if reporting one of them does.
* `perform_session`, `perform_answers` — what a step does, and what it answers.
* `performAll_sources`, `diagnostics_prefix` — what many steps add.
* `Diagnostic.render_append` — more sources change no drawing that lacked none.
* `performAll_consistent` — the sources and diagnostics of a session fit together, always.
-/

namespace Sapling

/-! ### Drawings against more sources -/

namespace Render

variable {sources : List Source}

/-- More sources move no snippet whose source is there. -/
theorem mark_append (more : List Source) {s : Snippet}
    (h : mark? sources s ≠ .error .sourceMissing) :
    mark? (sources ++ more) s = mark? sources s := by
  cases hsource : sources[s.source]? with
  | none => exact absurd (by rw [mark?, hsource]) h
  | some source =>
    have hlater : (sources ++ more)[s.source]? = some source := by
      rw [List.getElem?_append_left (List.getElem?_eq_some_iff.1 hsource).1, hsource]
    rw [mark?, mark?, hsource, hlater]

/-- More sources move no snippets, unless the source of one of them was found missing. -/
theorem marks_append (more : List Source) {snippets : List Snippet} :
    marks? sources snippets ≠ .error .sourceMissing →
      marks? (sources ++ more) snippets = marks? sources snippets := by
  induction snippets with
  | nil => exact fun _ => rfl
  | cons s snippets ih =>
    intro h
    rw [marks?, List.mapM_cons] at h ⊢
    rw [marks?, List.mapM_cons]
    have hmark : mark? sources s ≠ .error .sourceMissing := by
      intro hmissing
      rw [hmissing] at h
      exact h rfl
    rw [mark_append more hmark]
    cases hs : mark? sources s with
    | error failure => rfl
    | ok m =>
      have hmarks : marks? sources snippets ≠ .error .sourceMissing := by
        intro hmissing
        rw [hs, ← marks?, hmissing] at h
        exact h rfl
      rw [← marks?, ← marks?, ih hmarks]

end Render

open Render in
/-- **More sources change no drawing** that did not break off because a source was missing. -/
theorem Diagnostic.render_append (config : Config) {sources : List Source} (more : List Source)
    {d : Diagnostic} (h : (d.render config sources).failure ≠ some .sourceMissing) :
    d.render config (sources ++ more) = d.render config sources := by
  have hmarks : marks? sources d.snippets ≠ .error .sourceMissing := by
    intro hmissing
    rw [render_of_error hmissing] at h
    exact h rfl
  rw [render, render, renderBy, renderBy, marks_append more hmarks]

namespace Session

/-! ### Steps -/

/-- The steps that a session can take. -/
inductive Action where
  /-- Adds a source. -/
  | insert (name text : String)
  /-- Adds a source and parses it. -/
  | parse (name text : String)
  /-- Adds a source, parses it and evaluates it. -/
  | run (name text : String)
  /-- Reports a diagnostic. -/
  | report (d : Diagnostic)
  /-- Reports diagnostics. -/
  | reportMany (ds : List Diagnostic)
  deriving DecidableEq, Repr, Inhabited

/-- What the steps answer. -/
inductive Answer where
  /-- The index of a source. -/
  | index (i : Nat)
  /-- A program, or that there were errors. -/
  | program (parsed : Except Rejection Program)
  /-- The value of a program, if it has one, or that there were errors. -/
  | value (result : Except Rejection (Option Value))
  /-- Whether an error was among what was reported. -/
  | hadError (signal : Bool)
  deriving Repr

/-- Takes a step. -/
def perform (s : Session) : Action → Answer × Session
  | .insert name text => let done := s.insert name text; (.index done.1, done.2)
  | .parse name text => let done := s.parse name text; (.program done.1, done.2)
  | .run name text => let done := s.run name text; (.value done.1, done.2)
  | .report d => let done := s.report d; (.hadError done.1, done.2)
  | .reportMany ds => let done := s.reportMany ds; (.hadError done.1, done.2)

/-- Takes steps, one after the other. -/
def performAll (s : Session) : List Action → Session
  | [] => s
  | a :: actions => (s.perform a).2.performAll actions

/-- The source that a step adds. -/
def Action.source? : Action → Option Source
  | .insert name text => some ⟨name, none, text⟩
  | .parse name text => some ⟨name, none, text⟩
  | .run name text => some ⟨name, none, text⟩
  | .report _ => none
  | .reportMany _ => none

/-- The diagnostics that a step adds.  Those for syntax errors name the index of its source. -/
def Action.reported (index : Nat) : Action → List Diagnostic
  | .insert _ _ => []
  | .parse _ text => (parseText text.toList).2.map (SyntaxError.toDiagnostic index)
  | .run _ text => (parseText text.toList).2.map (SyntaxError.toDiagnostic index)
  | .report d => [d]
  | .reportMany ds => ds

/-- What a step answers if its source gets an index. -/
def Action.Answers (index : Nat) : Action → Answer → Prop
  | .insert _ _, answer => answer = .index index
  | .parse _ text, answer =>
    let parsed := parseText text.toList
    answer = .program (if parsed.2 = [] then .ok parsed.1 else .error .hadErrors)
  | .run _ text, answer =>
    let parsed := parseText text.toList
    answer = .value (if parsed.2 = [] then .ok parsed.1.value? else .error .hadErrors)
  | .report d, answer => answer = .hadError (d.severity = .error)
  | .reportMany ds, answer => ∃ signal, answer = .hadError signal ∧
      ∀ s : Session, signal = true ↔ ∃ d ∈ ds, (s.perform (.report d)).1 = .hadError true

variable (s t : Session)

/-- An error is signalled for many diagnostics if it would be for one of them alone. -/
theorem reportMany_signals (ds : List Diagnostic) :
    (s.reportMany ds).1 = true ↔ ∃ d ∈ ds, (t.report d).1 = true := by
  simp only [report, reportMany, List.any_eq_true, List.mem_singleton, exists_eq_left]

/-- What parsing a text in a session answers depends on the text alone. -/
theorem parse_fst (name text : String) :
    (s.parse name text).1 =
      if (parseText text.toList).2 = [] then .ok (parseText text.toList).1
      else .error .hadErrors := by
  have hsignal (index : Nat) (errors : List SyntaxError) :
      (errors.map (SyntaxError.toDiagnostic index)).any (·.severity = .error) = true ↔
        errors ≠ [] := by
    cases errors <;> simp [SyntaxError.toDiagnostic]
  simp only [parse, reportMany, hsignal, ite_not]

/-- **A step adds its source and its diagnostics**, and does nothing else. -/
theorem perform_session (a : Action) :
    (s.perform a).2 =
      ⟨s.sources ++ a.source?.toList, s.diagnostics ++ a.reported s.sources.length⟩ := by
  cases a with
  | insert name text => rw [Action.reported, List.append_nil]; rfl
  | parse name text => rfl
  | run name text => rfl
  | report d => rw [Action.source?, Option.toList_none, List.append_nil]; rfl
  | reportMany ds => rw [Action.source?, Option.toList_none, List.append_nil]; rfl

/-- **What a step answers** depends on the steps before it by its index only. -/
theorem perform_answers (a : Action) : a.Answers s.sources.length (s.perform a).1 := by
  cases a with
  | insert name text => rfl
  | parse name text => exact congrArg Answer.program (s.parse_fst name text)
  | run name text =>
    have hrun : (s.run name text).1 = (s.parse name text).1.map Program.value? := rfl
    refine congrArg Answer.value ?_
    rw [hrun, parse_fst]
    split <;> rfl
  | report d => exact congrArg Answer.hadError (Bool.or_false _)
  | reportMany ds =>
    refine ⟨_, rfl, fun t => ?_⟩
    simp only [perform, Answer.hadError.injEq]
    exact s.reportMany_signals t ds

/-- The snippets of syntax errors are about the source of the step that found them. -/
theorem source_of_reported {index : Nat} {a : Action} (h : a.source? ≠ none) {d : Diagnostic}
    (hd : d ∈ a.reported index) : ∀ sn ∈ d.snippets, sn.source = index := by
  have herrors (text : List Char) :
      ∀ d ∈ (parseText text).2.map (SyntaxError.toDiagnostic index),
        ∀ sn ∈ d.snippets, sn.source = index := by
    intro d hd sn hsn
    obtain ⟨e, he, rfl⟩ := List.mem_map.1 hd
    exact ((parseText_foundIn text e he).snippets index sn hsn).1
  cases a with
  | insert name text => exact absurd hd List.not_mem_nil
  | parse name text => exact herrors text.toList d hd
  | run name text => exact herrors text.toList d hd
  | report d => exact absurd rfl h
  | reportMany ds => exact absurd rfl h

/-! ### Many steps -/

variable {s}

theorem performAll_append (earlier later : List Action) :
    s.performAll (earlier ++ later) = (s.performAll earlier).performAll later := by
  induction earlier generalizing s with
  | nil => rfl
  | cons a earlier ih => exact ih

/-- **The sources are those that the steps added**, in order. -/
theorem performAll_sources (actions : List Action) :
    (s.performAll actions).sources = s.sources ++ actions.filterMap Action.source? := by
  induction actions generalizing s with
  | nil => rw [List.filterMap_nil, List.append_nil]; rfl
  | cons a actions ih =>
    rw [performAll, ih, perform_session, List.append_assoc]
    cases h : a.source? with
    | none => rw [List.filterMap_cons_none h]; rfl
    | some source => rw [List.filterMap_cons_some h]; rfl

/-- **The diagnostics stay**, and others come after them. -/
theorem diagnostics_prefix (actions : List Action) :
    s.diagnostics <+: (s.performAll actions).diagnostics := by
  induction actions generalizing s with
  | nil => exact List.prefix_refl _
  | cons a actions ih =>
    have hstep : s.diagnostics <+: (s.perform a).2.diagnostics := by
      rw [perform_session]
      exact List.prefix_append _ _
    exact hstep.trans ih

/-- The texts of the sources are found under the indices that they got, and there are no others. -/
theorem sourceText_performAll (collected : List Diagnostic) (actions : List Action) (i : Nat) :
    (performAll ⟨[], collected⟩ actions).sourceText? i
      = (actions.filterMap Action.source?)[i]?.map Source.text := by
  rw [sourceText?, performAll_sources, List.nil_append]

/-- Later steps change no drawing that lacked no source. -/
theorem render_performAll (config : Config) (actions : List Action) {i : Nat} {drawing : Drawing}
    (h : (s.render config)[i]? = some drawing) (hwhole : drawing.failure ≠ some .sourceMissing) :
    ((s.performAll actions).render config)[i]? = some drawing := by
  rw [render, List.getElem?_map] at h ⊢
  obtain ⟨d, hd, rfl⟩ := Option.map_eq_some_iff.1 h
  obtain ⟨more, hmore⟩ := diagnostics_prefix (s := s) actions
  rw [← hmore, List.getElem?_append_left (List.getElem?_eq_some_iff.1 hd).1, hd, performAll_sources,
    Option.map_some, Diagnostic.render_append config _ hwhole]

/-! ### Sources and diagnostics fit together -/

/-- **Sources and diagnostics fit together, always.**  Take any steps `before`, then a step `a`, and
then any steps `after`, in a session that has no sources yet.  A source that `a` adds gets the
number of sources before it for an index, keeps it, and is the only one to have it; no index beyond
the number of sources belongs to one.  What `a` answers, and what it reports, has nothing else to do
with the steps `before`.  It adds its diagnostics to those that are there, and if they are syntax
errors, all their snippets name its own source.  No diagnostic ever changes, and none that was drawn
without a source missing is drawn in another way later. -/
theorem performAll_consistent (collected : List Diagnostic) (before after : List Action)
    (a : Action) :
    let start : Session := ⟨[], collected⟩
    let s := start.performAll before
    let done := s.perform a
    let later := start.performAll (before ++ a :: after)
    let index := (before.filterMap Action.source?).length
    (∀ source ∈ a.source?, s.sourceText? index = none ∧
      done.2.sourceText? index = some source.text ∧
      later.sourceText? index = some source.text) ∧
    (∀ i, later.sourceText? i = none ↔
      ((before ++ a :: after).filterMap Action.source?).length ≤ i) ∧
    a.Answers index done.1 ∧
    done.2.diagnostics = s.diagnostics ++ a.reported index ∧
    (a.source? ≠ none → ∀ d ∈ a.reported index, ∀ sn ∈ d.snippets, sn.source = index) ∧
    done.2.diagnostics <+: later.diagnostics ∧
    ∀ (config : Config) (i : Nat) (drawing : Drawing), (s.render config)[i]? = some drawing →
      drawing.failure ≠ some .sourceMissing → (later.render config)[i]? = some drawing := by
  intro start s done later index
  have hsources : s.sources = before.filterMap Action.source? := performAll_sources before
  have hindex : s.sources.length = index := congrArg List.length hsources
  have hlater : later = done.2.performAll after := performAll_append before (a :: after)
  refine ⟨?_, ?_, ?_, ?_, ?_, ?_, ?_⟩
  · intro source hsource
    have hnone : s.sourceText? index = none := by
      rw [← hindex, sourceText?, List.getElem?_eq_none (Nat.le_refl _)]
      rfl
    have hdone : done.2.sources[index]? = some source := by
      rw [perform_session, Option.mem_def.1 hsource, ← hindex]
      exact List.getElem?_concat_length
    refine ⟨hnone, by rw [sourceText?, hdone]; rfl, ?_⟩
    rw [hlater, sourceText?, performAll_sources,
      List.getElem?_append_left (List.getElem?_eq_some_iff.1 hdone).1, hdone]
    rfl
  · intro i
    rw [sourceText_performAll, Option.map_eq_none_iff, List.getElem?_eq_none_iff]
  · exact hindex ▸ perform_answers s a
  · rw [← hindex]
    exact congrArg Session.diagnostics (perform_session s a)
  · exact fun h d hd => source_of_reported h hd
  · rw [hlater]
    exact diagnostics_prefix after
  · intro config i drawing h hwhole
    rw [show later = s.performAll (a :: after) from hlater]
    exact render_performAll config (a :: after) h hwhole

/-- A text with an error is added as the first source, and another one after it as the second. -/
theorem performAll_consistent_paren :
    let s := Session.empty.performAll [.parse "first" "("]
    let later := Session.empty.performAll [.parse "first" "(", .insert "second" "1"]
    (Session.empty.perform (.parse "first" "(")).1 = .program (.error .hadErrors) ∧
      (s.perform (.insert "second" "1")).1 = .index 1 ∧
      later.sourceText? 0 = some "(" ∧ later.sourceText? 1 = some "1" ∧
      later.sourceText? 2 = none ∧ later.diagnostics.length = 2 := by
  intro s later
  have herrors : (parseText "(".toList).2 ≠ [] := by
    rw [show "(".toList = ['('] from rfl, parseText_paren]
    exact List.cons_ne_nil _ _
  obtain ⟨hfirst, -, hanswer, hreported, -⟩ :=
    performAll_consistent [] [] [.insert "second" "1"] (.parse "first" "(")
  obtain ⟨hsecond, hnone, hindex, hsame, -⟩ :=
    performAll_consistent [] [.parse "first" "("] [] (.insert "second" "1")
  have hlength : later.diagnostics.length = 2 := by
    have hadded : later.diagnostics
        = (parseText "(".toList).2.map (SyntaxError.toDiagnostic 0) ++ [] := by
      exact hsame.trans (congrArg (· ++ []) hreported)
    rw [hadded, show "(".toList = ['('] from rfl, parseText_paren]
    rfl
  exact ⟨hanswer.trans (by rw [if_neg herrors]), hindex, (hfirst _ rfl).2.2, (hsecond _ rfl).2.2,
    (hnone 2).2 (Nat.le_refl 2), hlength⟩

end Session

end Sapling
