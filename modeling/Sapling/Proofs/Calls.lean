import Sapling.Text.Cursor

/-!
# Calls to something that is read from

Characters are read from a text by calls in any order, directly or through references.  What is
unread is always the text from some character on.  A look at the next character, or at whether there
is one, reads nothing; a wanted character is read if it comes next; and reading on stops before the
first character that does not pass the test.  The test is asked about the characters that are read,
and about the one after them if there is one, in order and once each.

## Main definitions

* `Lookahead.Call`, `Lookahead.Answer` — the calls that can be made, and what they answer.
* `Lookahead.Call.perform`, `Lookahead.performAll` — one call, and many.
* `Lookahead.Call.direct` — a call without the references it is made through.
* `Cursor.In` — a cursor that stands in a text.

## Main results

* `Lookahead.Call.perform_direct` — references do not matter.
* `Cursor.exists_read_of_perform` — what a call reads comes next in the text.
* `Cursor.In.perform`, `Cursor.In.performAll` — a call leaves a cursor in its text, and so do many.
* `Cursor.perform_acceptWhile` — how far it is read on, and what the test is asked about.
* `Cursor.performAll_calls` — what calls do after any others.
-/

namespace Sapling

open Text

namespace Lookahead

/-- The calls that can be made.  Tests may use an environment, and change it. -/
inductive Call (ρ : Type) where
  /-- Looks at the next character. -/
  | peek
  /-- Reads the next character. -/
  | next
  /-- Asks whether nothing is left to read. -/
  | atEnd
  /-- Reads the next character if it is the wanted one. -/
  | accept (wanted : Char)
  /-- Reads on as long as the next character passes a test. -/
  | acceptWhile (test : Char → StateM ρ Bool)
  /-- Makes a call through a reference. -/
  | byReference (call : Call ρ)

/-- What calls answer. -/
inductive Answer where
  /-- The next character, if there is one. -/
  | character (found : Option Char)
  /-- Whether something is the case. -/
  | verdict (holds : Bool)
  /-- The characters that a test was asked about, in order. -/
  | asked (about : List Char)
  deriving DecidableEq, Repr, Inhabited

variable {ρ : Type}

/-- A test that keeps the characters it was asked about. -/
def observed (test : Char → StateM ρ Bool) (ch : Char) : StateT (List Char) (StateM ρ) Bool := do
  modify (· ++ [ch])
  test ch

/-- Makes a call. -/
def Call.perform : Call ρ → {σ : Type} → [Lookahead σ] → σ → StateM ρ (Answer × σ)
  | peek, _, _, s => pure (.character (Lookahead.peek s), s)
  | next, _, _, s => pure (.character (Lookahead.next s).1, (Lookahead.next s).2)
  | atEnd, _, _, s => pure (.verdict (Lookahead.atEnd s), s)
  | accept wanted, _, _, s =>
    pure (.verdict (Lookahead.accept wanted s).1, (Lookahead.accept wanted s).2)
  | acceptWhile test, _, _, s => do
    let (reached, about) ← (acceptWhileM (observed test) s).run []
    return (.asked about, reached)
  | byReference call, _, _, s => do
    let (answer, reference) ← call.perform (Reference.mk s)
    return (answer, reference.target)

/-- Makes calls, one after the other. -/
def performAll {σ : Type} [Lookahead σ] : List (Call ρ) → σ → StateM ρ (List Answer × σ)
  | [], s => pure ([], s)
  | call :: calls, s => do
    let (answer, s) ← call.perform s
    let (answers, s) ← performAll calls s
    return (answer :: answers, s)

/-- The call that is made through references, if it is. -/
def Call.direct : Call ρ → Call ρ
  | byReference call => call.direct
  | call => call

/-! ### References -/

section References

variable {σ : Type} [Lookahead σ]

/-- Reading on through a reference is reading on in what it refers to. -/
theorem acceptWhileM_reference {m : Type → Type} [Monad m] [LawfulMonad m] (test : Char → m Bool)
    (s : σ) : acceptWhileM test (Reference.mk s) = Reference.mk <$> acceptWhileM test s := by
  induction hn : remaining s using Nat.strongRecOn generalizing s with
  | ind n ih =>
    cases h : peek s with
    | none =>
      have hreference : peek (Reference.mk s) = none := h
      rw [acceptWhileM_of_none test h, acceptWhileM_of_none test hreference, map_pure]
    | some ch =>
      have hreference : peek (Reference.mk s) = some ch := h
      have hlt : remaining (next s).2 < n := hn ▸ remaining_next s (by rw [h]; rfl)
      rw [acceptWhileM_of_some test h, acceptWhileM_of_some test hreference, map_bind]
      refine congrArg (test ch >>= ·) (funext fun passed => ?_)
      cases passed with
      | false => exact (map_pure _ _).symm
      | true => exact ih _ hlt (next s).2 rfl

theorem accept_reference (wanted : Char) (s : σ) :
    accept wanted (Reference.mk s)
      = ((accept wanted s).1, Reference.mk (accept wanted s).2) := by
  have hpeek : peek (Reference.mk s) = peek s := rfl
  rw [accept, accept, hpeek]
  split <;> rfl

namespace Call

theorem perform_byReference_eq (call : Call ρ) (s : σ) (e : ρ) :
    (byReference call).perform s e
      = (((call.perform (Reference.mk s) e).1.1, (call.perform (Reference.mk s) e).1.2.target),
          (call.perform (Reference.mk s) e).2) := rfl

/-- What is made through a reference is handed on to what it refers to. -/
theorem perform_reference (call : Call ρ) : ∀ {σ : Type} [Lookahead σ] (s : σ) (e : ρ),
    call.perform (Reference.mk s) e
      = (((call.perform s e).1.1, Reference.mk (call.perform s e).1.2), (call.perform s e).2) := by
  induction call with
  | peek => exact fun _ _ => rfl
  | next => exact fun _ _ => rfl
  | atEnd => exact fun _ _ => rfl
  | accept wanted =>
    intro σ _ s e
    rw [perform, accept_reference]
    rfl
  | acceptWhile test =>
    intro σ _ s e
    rw [perform, acceptWhileM_reference]
    rfl
  | byReference call ih =>
    intro σ _ s e
    rw [perform_byReference_eq, perform_byReference_eq, ih (Reference.mk s), ih s]

/-- **A call through a reference** is the call itself. -/
theorem perform_byReference (call : Call ρ) (s : σ) (e : ρ) :
    (byReference call).perform s e = call.perform s e := by
  rw [perform_byReference_eq, perform_reference]
  rfl

/-- **References do not matter.** -/
theorem perform_direct (call : Call ρ) (s : σ) (e : ρ) :
    call.direct.perform s e = call.perform s e := by
  induction call with
  | byReference call ih => rw [direct, ih, perform_byReference]
  | _ => rfl

end Call

theorem performAll_direct (calls : List (Call ρ)) (s : σ) :
    performAll (calls.map Call.direct) s = performAll calls s := by
  induction calls generalizing s with
  | nil => rfl
  | cons call calls ih =>
    have hcall : call.direct.perform s = call.perform s := funext (call.perform_direct s)
    rw [List.map_cons, performAll, performAll, hcall]
    simp only [ih]

end References

end Lookahead

/-! ### Cursors in a text -/

namespace Cursor

open Lookahead

variable {ρ : Type}

/-- The cursor stands in the text: what is unread is the text from a character on, at the offset of
the cursor. -/
def In (text : List Char) (c : Cursor) : Prop := dropBytes? c.offset text = some c.rest

theorem In.advance {text read left : List Char} {offset : Nat}
    (h : In text ⟨offset, read ++ left⟩) : In text ⟨offset + byteLength read, left⟩ := by
  obtain ⟨before, rfl, rfl⟩ := exists_append_of_dropBytes? h
  rw [In, ← List.append_assoc, ← byteLength_append]
  exact dropBytes?_append (before ++ read) left

theorem perform_next (c : Cursor) (e : ρ) :
    Call.next.perform c e = ((.character c.rest.head?, c.advance (c.rest.take 1)), e) := by
  obtain ⟨offset, rest⟩ := c
  cases rest <;> rfl

theorem perform_atEnd (c : Cursor) (e : ρ) :
    Call.atEnd.perform c e = ((.verdict c.rest.isEmpty, c), e) := by
  obtain ⟨offset, rest⟩ := c
  cases rest <;> rfl

theorem perform_accept (wanted : Char) (c : Cursor) (e : ρ) :
    (Call.accept wanted).perform c e
      = if c.rest.head? = some wanted then ((.verdict true, c.advance [wanted]), e)
        else ((.verdict false, c), e) := by
  have hperform : (Call.accept wanted).perform c e
      = ((.verdict (c.accept wanted).1, (c.accept wanted).2), e) := rfl
  rw [hperform, accept_eq]
  split <;> rfl

theorem run_acceptWhileM (test : Char → StateM ρ Bool) (offset : Nat) (ch : Char)
    (rest about : List Char) (e : ρ) :
    ((acceptWhileM (observed test) ⟨offset, ch :: rest⟩).run about).run e
      = if ((test ch).run e).1 then
          ((acceptWhileM (observed test) ⟨offset + ch.utf8Size, rest⟩).run (about ++ [ch])).run
            ((test ch).run e).2
        else ((⟨offset, ch :: rest⟩, about ++ [ch]), ((test ch).run e).2) := by
  have hasked : ((observed test ch).run about).run e
      = ((((test ch).run e).1, about ++ [ch]), ((test ch).run e).2) := rfl
  rw [acceptWhileM_cons, StateT.run_bind, StateT.run_bind, hasked]
  cases ((test ch).run e).1 <;> rfl

/-- The characters that are read have passed the test in turn, and the one after them, if there is
one, has not. -/
theorem exists_run_acceptWhileM (test : Char → StateM ρ Bool) : ∀ (rest : List Char)
    (offset : Nat) (about : List Char) (e : ρ), ∃ read left e', rest = read ++ left ∧
      ((acceptWhileM (observed test) ⟨offset, rest⟩).run about).run e
        = ((⟨offset + byteLength read, left⟩, about ++ (read ++ left.take 1)), e') ∧
      ((read ++ left.take 1).mapM test).run e
        = (read.map (fun _ => true) ++ (left.take 1).map (fun _ => false), e') := by
  intro rest
  induction rest with
  | nil =>
    intro offset about e
    refine ⟨[], [], e, rfl, ?_, rfl⟩
    rw [acceptWhileM_nil, List.take_nil, List.append_nil, List.append_nil]
    rfl
  | cons ch rest ih =>
    intro offset about e
    rw [run_acceptWhileM]
    cases htest : (test ch).run e with
    | mk passed e₁ =>
    cases passed with
    | false =>
      refine ⟨[], ch :: rest, e₁, rfl, rfl, ?_⟩
      rw [List.nil_append, List.take_succ_cons, List.take_zero, List.mapM_cons, StateT.run_bind,
        htest]
      rfl
    | true =>
      obtain ⟨read, left, e', rfl, hrun, hasked⟩ := ih (offset + ch.utf8Size) (about ++ [ch]) e₁
      refine ⟨ch :: read, left, e', rfl, ?_, ?_⟩
      · rw [if_pos rfl, hrun, Nat.add_assoc, ← byteLength_cons, List.append_assoc]
        rfl
      · rw [List.cons_append, List.mapM_cons, StateT.run_bind, htest]
        change StateT.run ((read ++ left.take 1).mapM test >>= fun bs => pure (true :: bs)) e₁ = _
        rw [StateT.run_bind, hasked]
        rfl

/-- Characters that have all passed a test without effects, up to one that has not, are the longest
part of that class. -/
theorem eq_takeWhile {passes : Char → Bool} {read left : List Char}
    (h : (read ++ left.take 1).map passes
      = read.map (fun _ => true) ++ (left.take 1).map fun _ => false) :
    read = (read ++ left).takeWhile passes := by
  rw [List.map_append] at h
  obtain ⟨hread, hleft⟩ := List.append_inj h (by simp)
  have hall : ∀ ch ∈ read, passes ch = true := List.map_inj_left.1 hread
  rw [List.takeWhile_append_of_pos hall]
  cases left with
  | nil => exact (List.append_nil read).symm
  | cons ch left =>
    have hch : passes ch = false := (List.cons.inj hleft).1
    rw [List.takeWhile_cons_of_neg (by simp [hch]), List.append_nil]

/-- **How far it is read on**, and what the test is asked about. -/
theorem perform_acceptWhile (test : Char → StateM ρ Bool) (c : Cursor) (e : ρ) :
    ∃ read left e', c.rest = read ++ left ∧
      (Call.acceptWhile test).perform c e
        = ((.asked (read ++ left.take 1), ⟨c.offset + byteLength read, left⟩), e') ∧
      ((read ++ left.take 1).mapM test).run e
        = (read.map (fun _ => true) ++ (left.take 1).map (fun _ => false), e') ∧
      ∀ passes : Char → Bool, (∀ ch, test ch = pure (passes ch)) →
        read = c.rest.takeWhile passes := by
  obtain ⟨read, left, e', hrest, hrun, hasked⟩ :=
    exists_run_acceptWhileM test c.rest c.offset [] e
  refine ⟨read, left, e', hrest, ?_, hasked, ?_⟩
  · have hperform : (Call.acceptWhile test).perform c e
        = let run := ((c.acceptWhileM (observed test)).run []).run e
          ((.asked run.1.2, run.1.1), run.2) := rfl
    rw [hperform, hrun, List.nil_append]
  · intro passes hpure
    have htest : test = fun ch => pure (passes ch) := funext hpure
    rw [htest, List.mapM_pure] at hasked
    rw [hrest]
    exact eq_takeWhile (Prod.mk.inj hasked).1

/-- **What a call reads** comes next in the text. -/
theorem exists_read_of_perform (call : Call ρ) (c : Cursor) (e : ρ) :
    ∃ read left, c.rest = read ++ left ∧
      (call.perform c e).1.2 = ⟨c.offset + byteLength read, left⟩ := by
  induction call with
  | peek => exact ⟨[], c.rest, rfl, rfl⟩
  | next =>
    obtain ⟨offset, rest⟩ := c
    cases rest with
    | nil => exact ⟨[], [], rfl, rfl⟩
    | cons ch rest => exact ⟨[ch], rest, rfl, rfl⟩
  | atEnd => exact ⟨[], c.rest, rfl, rfl⟩
  | accept wanted =>
    rw [perform_accept]
    split
    · next h =>
      obtain ⟨rest, hrest⟩ := List.head?_eq_some_iff.1 h
      exact ⟨[wanted], rest, hrest, by rw [advance, hrest]; rfl⟩
    · exact ⟨[], c.rest, rfl, rfl⟩
  | acceptWhile test =>
    obtain ⟨read, left, e', hrest, hperform, -⟩ := perform_acceptWhile test c e
    exact ⟨read, left, hrest, by rw [hperform]⟩
  | byReference call ih =>
    rw [Call.perform_byReference]
    exact ih

/-- **A call leaves the cursor in the text.** -/
theorem In.perform {text : List Char} {c : Cursor} (h : c.In text) (call : Call ρ) (e : ρ) :
    (call.perform c e).1.2.In text := by
  obtain ⟨read, left, hrest, hperform⟩ := exists_read_of_perform call c e
  rw [hperform]
  obtain ⟨offset, rest⟩ := c
  obtain rfl : rest = read ++ left := hrest
  exact h.advance

/-- **Calls leave the cursor in the text**, however many are made. -/
theorem In.performAll {text : List Char} : ∀ {c : Cursor} (_ : c.In text) (calls : List (Call ρ))
    (e : ρ), (performAll calls c e).1.2.In text := by
  intro c h calls
  induction calls generalizing c with
  | nil => exact fun _ => h
  | cons call calls ih => exact fun e => ih (h.perform call e) (call.perform c e).2

/-- **What calls do after any others.**  The unread text is the text from a character on.  Looking at
the next character, or asking whether there is one, reads nothing, and tells what would be read
next.  A wanted character is read just if it comes next.  Reading on reads the longest part whose
characters pass the test in turn; the test is asked about them, and about the next one if there is
one, once each and in order.  Calls through references do what the calls themselves do. -/
theorem performAll_calls (text : List Char) (calls : List (Call ρ)) (start : ρ) :
    let c := (Lookahead.performAll calls (ofText text) start).1.2
    let e := (Lookahead.performAll calls (ofText text) start).2
    dropBytes? c.offset text = some c.rest ∧
      Call.peek.perform c e = ((.character c.rest.head?, c), e) ∧
      Call.next.perform c e = ((.character c.rest.head?, c.advance (c.rest.take 1)), e) ∧
      Call.atEnd.perform c e = ((.verdict c.rest.isEmpty, c), e) ∧
      (∀ wanted, (Call.accept wanted).perform c e
        = if c.rest.head? = some wanted then ((.verdict true, c.advance [wanted]), e)
          else ((.verdict false, c), e)) ∧
      (∀ test, ∃ read left e', c.rest = read ++ left ∧
        (Call.acceptWhile test).perform c e
          = ((.asked (read ++ left.take 1), ⟨c.offset + byteLength read, left⟩), e') ∧
        ((read ++ left.take 1).mapM test).run e
          = (read.map (fun _ => true) ++ (left.take 1).map (fun _ => false), e') ∧
        ∀ passes : Char → Bool, (∀ ch, test ch = pure (passes ch)) →
          read = c.rest.takeWhile passes) ∧
      (∀ call, (Call.byReference call).perform c e = call.perform c e) ∧
      Lookahead.performAll (calls.map Call.direct) (ofText text) start
        = Lookahead.performAll calls (ofText text) start := by
  intro c e
  have hstart : (ofText text).In text := dropBytes?_zero text
  exact ⟨hstart.performAll calls start, rfl, perform_next c e, perform_atEnd c e,
    fun wanted => perform_accept wanted c e, fun test => perform_acceptWhile test c e,
    fun call => call.perform_byReference c e,
    congrFun (performAll_direct calls (ofText text)) start⟩

end Cursor

end Sapling
