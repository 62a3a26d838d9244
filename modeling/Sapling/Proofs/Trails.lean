import Sapling.Proofs.Derivation

/-!
# Trees are made of the tokens that were read

Whatever mistakes there are, the parser makes up no token, uses none twice, and changes no order: if
a tree is walked in the order in which it is written, its tokens are among those that were passed
over, in the same order.  A tree that is given up only leaves tokens out.

While an expression is read, each token of its tree was the current one at some point.  So what is
followed along the readings is the *trail* of the window: the tokens that were current on the way.
A program is read in rounds, one for each statement, and their trails make up the input.

## Main definitions

* `Expr.walk`, `Statement.walk`, `Program.walk` — the tokens of a tree, in the order of its writing.
* `Expr.Agrees`, `Statement.Agrees` — every node of a tree says what its token says.
* `Window.Trail w ts v` — the tokens `ts` were the current ones on the way from `w` to `v`.
* `Rounds` — the rounds in which a list of tokens is read.
* `Turn` — a round, with the errors that are found in it.

## Main results

* `readings_trail` — the trees of the readings are walked along their trails.
* `readings_agree`, `parse_agrees` — their nodes agree with their tokens, and so do all nodes of a
  program.
* `exists_turns_of` — a program is read in turns, and its errors are those of the turns.
* `exists_rounds` — a program is read in rounds, each of which begins at its statement's token.
* `parse_ofTokens_walk` — the tree of a program is faithful to its tokens.
-/

namespace Sapling

open Sapling.Parser

/-! ### Walking trees -/

namespace Expr

mutual

/-- The tokens of an expression, in the order in which it is written. -/
def walk : Expr → List Token
  | hole => []
  | ident name => [name.token]
  | int t _ => [t]
  | bool t _ => [t]
  | unary t _ operand => t :: operand.walk
  | binary t left _ right => left.walk ++ t :: right.walk
  | call t function arguments => function.walk ++ t :: walks arguments

/-- The tokens of several expressions, one after the other. -/
def walks : List Expr → List Token
  | [] => []
  | e :: es => e.walk ++ walks es

end

theorem mem_walks {t : Token} {es : List Expr} : t ∈ walks es ↔ ∃ e ∈ es, t ∈ e.walk := by
  induction es with
  | nil => simp [walks]
  | cons e es ih => simp [walks, ih]

end Expr

/-- The tokens of a statement, in the order in which it is written. -/
def Statement.walk : Statement → List Token
  | .binding t name value => t :: name.token :: value.walk
  | .returning t value => t :: value.walk
  | .expression _ value => value.walk

/-- The tokens of a program, in the order in which it is written. -/
def Program.walk (p : Program) : List Token := p.statements.flatMap Statement.walk

/-! ### Nodes and their tokens -/

/-- Every node of an expression says what its token says.  There may be holes. -/
inductive Expr.Agrees : Expr → Prop where
  /-- A hole has no token. -/
  | hole : Agrees .hole
  /-- A name, which is the literal of its token, a boolean, or an integer: the number, never
  negative, that the literal of its token denotes. -/
  | atom {t : Token} {e : Expr} : Atom t e → Agrees e
  /-- An operator before its operand. -/
  | unary {t : Token} {op : UnaryOp} {operand : Expr} : UnaryOp.ofKind? t.kind = some op →
      Agrees operand → Agrees (.unary t op operand)
  /-- An operator between its operands. -/
  | binary {t : Token} {left right : Expr} {op : BinaryOp} : BinaryOp.ofKind? t.kind = some op →
      Agrees left → Agrees right → Agrees (.binary t left op right)
  /-- A call, at the parenthesis that opens its arguments. -/
  | call {t : Token} {function : Expr} {arguments : List Expr} : t.kind = .leftParen →
      Agrees function → (∀ a ∈ arguments, Agrees a) → Agrees (.call t function arguments)

/-- Every node of a statement says what its token says.  What is bound or returned is absent, and an
expression begins with neither of the words for these, nor with an end of input. -/
def Statement.Agrees : Statement → Prop
  | .binding t name value =>
    t.kind = .letWord ∧ name.token.kind = .ident ∧ name.value = name.token.literal ∧ value = .hole
  | .returning t value => t.kind = .returnWord ∧ value = .hole
  | .expression t value =>
    t.kind ≠ .eof ∧ t.kind ≠ .letWord ∧ t.kind ≠ .returnWord ∧ value.Agrees

theorem Atom.walk_eq {t : Token} {e : Expr} (h : Atom t e) : e.walk = [t] := by
  cases h <;> rfl

theorem Expr.Agrees.kind_ne_eof {e : Expr} (h : e.Agrees) : ∀ t ∈ e.walk, t.kind ≠ .eof := by
  induction h with
  | hole => simp [Expr.walk]
  | @atom t e h =>
    have hkind : t.kind ≠ .eof := h.startsPhrase.ne (by decide)
    simpa [h.walk_eq] using hkind
  | @unary t _ _ hop _ ih =>
    have hkind : t.kind ≠ .eof := (UnaryOp.startsPhrase hop).ne (by decide)
    exact List.forall_mem_cons.2 ⟨hkind, ih⟩
  | binary hop _ _ ihl ihr =>
    have hkind := Suffix.kind_ne_eof (suffix_of_binary hop)
    exact List.forall_mem_append.2 ⟨ihl, List.forall_mem_cons.2 ⟨hkind, ihr⟩⟩
  | call hk _ _ ihf iha =>
    have hkind := Suffix.kind_ne_eof (suffix_of_leftParen hk)
    refine List.forall_mem_append.2 ⟨ihf, List.forall_mem_cons.2 ⟨hkind, ?_⟩⟩
    intro t ht
    obtain ⟨a, ha, ht⟩ := Expr.mem_walks.1 ht
    exact iha a ha t ht

theorem Statement.Agrees.kind_ne_eof {s : Statement} (h : s.Agrees) :
    ∀ t ∈ s.walk, t.kind ≠ .eof := by
  cases s with
  | binding t name value =>
    obtain ⟨hlet, hident, -, rfl⟩ := h
    simp [walk, Expr.walk, hlet, hident]
  | returning t value =>
    obtain ⟨hreturn, rfl⟩ := h
    simp [walk, Expr.walk, hreturn]
  | expression t value => exact h.2.2.2.kind_ne_eof

/-! ### Trails -/

section Trails

variable {σ : Type} [TokenStream σ]

/-- The tokens that were the current one on the way from one window to another, those of both
windows included. -/
inductive Window.Trail : Window σ → List Token → Window σ → Prop where
  /-- No step at all. -/
  | here (w : Window σ) : Trail w [w.current] w
  /-- One step, and then more. -/
  | step {w v : Window σ} {ts : List Token} : Trail w.advance ts v → Trail w (w.current :: ts) v

namespace Window.Trail

variable {u v w : Window σ} {ts us : List Token}

/-- A trail, and another one that begins a step later. -/
theorem append (h : u.Trail ts v) (k : v.advance.Trail us w) : u.Trail (ts ++ us) w := by
  induction h with
  | here => exact .step k
  | step _ ih => exact .step (ih k)

/-- A trail that goes on from where another one ends. -/
theorem trans (h : u.Trail ts v) (k : v.Trail (v.current :: us) w) : u.Trail (ts ++ us) w := by
  induction h with
  | here => exact k
  | step _ ih => exact .step (ih k)

/-- A trail, and one step more. -/
theorem advance (h : u.Trail ts v) : u.Trail (ts ++ [v.peek]) v.advance := h.append (.here _)

end Window.Trail

theorem Window.Reaches.exists_trail {v w : Window σ} (h : w.Reaches v) :
    ∃ ts, w.Trail (w.current :: ts) v := by
  induction h with
  | refl w => exact ⟨[], .here w⟩
  | @step w v _ ih =>
    obtain ⟨ts, hts⟩ := ih
    exact ⟨_, .step hts⟩

/-- What was read has its tokens, in their order, on the way to the window reached. -/
def Reading.Trails {α : Type} (walk : α → List Token) (w : Window σ) (r : Reading σ α) : Prop :=
  ∃ ts, w.Trail ts r.window ∧ (walk r.value).Sublist ts

/-- What was read on after an operand has the tokens of the operand, and then others, in their
order, on the way to the window reached. -/
def Reading.TrailsAfter (left : Expr) (w : Window σ) (r : Reading σ Expr) : Prop :=
  ∃ ts more, w.Trail (w.current :: ts) r.window ∧ r.value.walk = left.walk ++ more ∧
    more.Sublist ts

namespace Reading

variable {w v : Window σ} {left : Expr}

theorem TrailsAfter.here : TrailsAfter left w (.here w left) :=
  ⟨[], [], .here w, (List.append_nil _).symm, .slnil⟩

/-- A closing parenthesis at the end is passed over.  If it is missing, less was read. -/
theorem Trails.closing {α : Type} {walk : α → List Token} {r : Reading σ α} (h : r.Trails walk w)
    (opening : Span) {instead : α} (hinstead : walk instead = []) :
    (r.closing opening instead).Trails walk w := by
  obtain ⟨ts, htrail, hwalk⟩ := h
  unfold Reading.closing
  split
  · exact ⟨_, htrail.advance, hwalk.trans (List.sublist_append_left _ _)⟩
  · refine ⟨ts, htrail, ?_⟩
    rw [hinstead]
    exact List.nil_sublist ts

end Reading

/-- What was read up to a closing parenthesis is what was read before it, or what is put instead. -/
theorem Reading.closing_induction {α : Type} {P : α → Prop} {r : Reading σ α} {opening : Span}
    {instead : α} (h : P r.value) (k : P instead) : P (r.closing opening instead).value := by
  unfold Reading.closing
  split
  · exact h
  · exact k

/-- **The trees of the readings are walked along their trails.** -/
theorem readings_trail :
    (∀ least (w : Window σ), (expression least w).Trails Expr.walk w) ∧
    (∀ least left (w : Window σ), (suffixes least left w).TrailsAfter left w) ∧
    (∀ w : Window σ, (arguments w).Trails Expr.walks w.advance) ∧
    ∀ w : Window σ, ∃ ts, w.Trail (w.current :: ts) (moreArguments w).window ∧
      (Expr.walks (moreArguments w).value).Sublist ts := by
  apply readings_induction
  case nothing =>
    intro least w h
    -- the token is left out, for no tree begins with it
    rw [expression_eq, h]
    exact ⟨_, .here w, List.nil_sublist _⟩
  case operand =>
    intro least w e h ihs
    obtain ⟨ts, more, htrail, hwalk, hmore⟩ := ihs
    rw [expression_eq, h]
    refine ⟨_, htrail, ?_⟩
    rw [hwalk, (atom_of_ofToken h).walk_eq]
    exact hmore.cons_cons _
  case invalid =>
    intro least w h ihs
    obtain ⟨ts, more, htrail, hwalk, hmore⟩ := ihs
    rw [expression_eq, h]
    refine ⟨_, htrail, ?_⟩
    -- the literal is left out, and there is a hole in its place
    rw [Reading.value_after, hwalk]
    exact hmore.cons _
  case operator =>
    intro least w op h ihe ihs
    obtain ⟨os, hoperand, hwalk⟩ := ihe
    obtain ⟨ts, more, htrail, hvalue, hmore⟩ := ihs
    rw [expression_eq, h]
    refine ⟨_, .step (hoperand.trans htrail), ?_⟩
    rw [Reading.value_after, hvalue]
    exact (hwalk.append hmore).cons_cons _
  case group =>
    intro least w h ihe ihs
    -- neither parenthesis is in the tree, and nothing is if the closing one is missing
    have hgroup : Reading.Trails Expr.walk w.advance
        ((expression .lowest w.advance).closing w.current.span .hole) :=
      ihe.closing w.current.span rfl
    obtain ⟨gs, hgroup, hwalk⟩ := hgroup
    obtain ⟨ts, more, htrail, hvalue, hmore⟩ := ihs
    rw [expression_eq, h]
    refine ⟨_, .step (hgroup.trans htrail), ?_⟩
    rw [Reading.value_after, hvalue]
    exact (hwalk.append hmore).cons _
  case finished =>
    intro least left w h
    rw [suffixes_eq, h]
    exact .here
  case binary =>
    intro least left w op h hp ihe ihs
    obtain ⟨rs, hright, hwalk⟩ := ihe
    obtain ⟨ts, more, htrail, hvalue, hmore⟩ := ihs
    rw [suffixes_eq, h]
    simp only [if_pos hp]
    refine ⟨_, w.peek :: (_ ++ more), .step (.step (hright.trans htrail)), ?_,
      (hwalk.append hmore).cons_cons _⟩
    rw [Reading.value_after, hvalue, Expr.walk, List.append_assoc, List.cons_append]
  case looser =>
    intro least left w op h hp
    rw [suffixes_eq, h]
    simp only [if_neg hp]
    exact .here
  case call =>
    intro least left w h hp iha ihs
    obtain ⟨as, harguments, hwalk⟩ := iha
    obtain ⟨ts, more, htrail, hvalue, hmore⟩ := ihs
    rw [suffixes_eq, h]
    simp only [if_pos hp]
    refine ⟨_, w.peek :: (_ ++ more), .step (.step (harguments.trans htrail)), ?_,
      (hwalk.append hmore).cons_cons _⟩
    rw [Reading.value_after, hvalue, Expr.walk, List.append_assoc, List.cons_append]
  case looserCall =>
    intro least left w h hp
    rw [suffixes_eq, h]
    simp only [if_neg hp]
    exact .here
  case noArguments =>
    intro w h
    rw [arguments_eq, if_pos h]
    exact ⟨_, .here _, List.nil_sublist _⟩
  case someArguments =>
    intro w h ihe ihm
    obtain ⟨fs, hfirst, hwalk⟩ := ihe
    obtain ⟨ms, hmore, hwalks⟩ := ihm
    rw [arguments_eq, if_neg h]
    have hall : Reading.Trails Expr.walks w.advance ((expression .lowest w.advance).cons
        (moreArguments (expression .lowest w.advance).window)) :=
      ⟨_, hfirst.trans hmore, hwalk.append hwalks⟩
    exact hall.closing w.current.span rfl
  case comma =>
    intro w h ihe ihm
    obtain ⟨ns, hnext, hwalk⟩ := ihe
    obtain ⟨ms, hmore, hwalks⟩ := ihm
    -- the comma is on the trail, but in no tree
    rw [moreArguments_eq, if_pos h]
    exact ⟨_, .step (.step (hnext.trans hmore)), (hwalk.append hwalks).cons _⟩
  case noComma =>
    intro w h
    rw [moreArguments_eq, if_neg h]
    exact ⟨[], .here w, List.nil_sublist _⟩

/-- **The nodes of the readings agree with their tokens.** -/
theorem readings_agree :
    (∀ least (w : Window σ), (expression least w).value.Agrees) ∧
    (∀ least left (w : Window σ), left.Agrees → (suffixes least left w).value.Agrees) ∧
    (∀ w : Window σ, ∀ a ∈ (arguments w).value, a.Agrees) ∧
    ∀ w : Window σ, ∀ a ∈ (moreArguments w).value, a.Agrees := by
  apply readings_induction
  case nothing =>
    intro least w h
    rw [expression_eq, h]
    exact .hole
  case operand =>
    intro least w e h ihs
    rw [expression_eq, h]
    exact ihs (.atom (atom_of_ofToken h))
  case invalid =>
    intro least w h ihs
    rw [expression_eq, h]
    exact ihs .hole
  case operator =>
    intro least w op h ihe ihs
    rw [expression_eq, h]
    exact ihs (.unary (Opening.ofKind_of_operator h) ihe)
  case group =>
    intro least w h ihe ihs
    rw [expression_eq, h]
    exact ihs (Reading.closing_induction ihe .hole)
  case finished =>
    intro least left w h hleft
    rw [suffixes_eq, h]
    exact hleft
  case binary =>
    intro least left w op h hp ihe ihs hleft
    rw [suffixes_eq, h]
    simp only [if_pos hp]
    exact ihs (.binary (Suffix.ofKind_of_operator h) hleft ihe)
  case looser =>
    intro least left w op h hp hleft
    rw [suffixes_eq, h]
    simp only [if_neg hp]
    exact hleft
  case call =>
    intro least left w h hp iha ihs hleft
    rw [suffixes_eq, h]
    simp only [if_pos hp]
    exact ihs (.call (Suffix.leftParen_of_call h) hleft iha)
  case looserCall =>
    intro least left w h hp hleft
    rw [suffixes_eq, h]
    simp only [if_neg hp]
    exact hleft
  case noArguments =>
    intro w h
    rw [arguments_eq, if_pos h]
    simp [Reading.here]
  case someArguments =>
    intro w h ihe ihm
    have hall : ∀ a ∈ ((expression .lowest w.advance).cons
        (moreArguments (expression .lowest w.advance).window)).value, a.Agrees :=
      List.forall_mem_cons.2 ⟨ihe, ihm⟩
    have hnone : ∀ a ∈ ([] : List Expr), a.Agrees := by simp
    rw [arguments_eq, if_neg h]
    exact Reading.closing_induction (P := fun es : List Expr => ∀ a ∈ es, a.Agrees) hall hnone
  case comma =>
    intro w h ihe ihm
    rw [moreArguments_eq, if_pos h]
    exact List.forall_mem_cons.2 ⟨ihe, ihm⟩
  case noComma =>
    intro w h
    rw [moreArguments_eq, if_neg h]
    simp [Reading.here]

/-! ### Statements -/

/-- A statement was read at a window, if any: it begins with the current token, agrees with its
tokens, and has them, in their order, on the way to the window reached. -/
def Reading.TrailsStatement (w : Window σ) (r : Reading σ (Option Statement)) : Prop :=
  ∃ ts, w.Trail (w.current :: ts) r.window ∧
    ∀ s ∈ r.value, s.token = w.current ∧ s.Agrees ∧ s.walk.Sublist (w.current :: ts)

theorem binding_trails {w : Window σ} (hlet : w.current.kind = .letWord) :
    (binding w).1.TrailsStatement w := by
  rw [binding_eq]
  split
  · next hname =>
    split
    · -- the trail goes over the name, and over the tokens that are passed over
      obtain ⟨ts, hskip⟩ := (advanceToSemicolon w.advance.advance).2.exists_trail
      have htrail : w.Trail (w.current :: w.peek :: w.advance.advance.current :: ts)
          (advanceToSemicolon w.advance.advance).1 := .step (.step hskip)
      refine ⟨_, htrail, ?_⟩
      intro s hs
      obtain rfl := Option.some.inj hs
      have hwalk : [w.current, w.peek].Sublist
          (w.current :: w.peek :: w.advance.advance.current :: ts) :=
        ((List.nil_sublist _).cons_cons _).cons_cons _
      exact ⟨rfl, ⟨hlet, hname, rfl, rfl⟩, hwalk⟩
    · have htrail : w.Trail [w.current, w.peek] w.advance := .step (.here _)
      refine ⟨_, htrail, ?_⟩
      simp [Reading.mistake]
  · refine ⟨[], .here w, ?_⟩
    simp [Reading.mistake]

theorem returning_trails {w : Window σ} (hreturn : w.current.kind = .returnWord) :
    (returning w).1.TrailsStatement w := by
  obtain ⟨ts, hskip⟩ := (advanceToSemicolon w.advance).2.exists_trail
  have htrail : w.Trail (w.current :: w.advance.current :: ts) (advanceToSemicolon w.advance).1 :=
    .step hskip
  refine ⟨_, htrail, ?_⟩
  intro s hs
  obtain rfl := Option.some.inj hs
  exact ⟨rfl, ⟨hreturn, rfl⟩, (List.nil_sublist _).cons_cons _⟩

/-- A trail begins with the current token. -/
theorem Window.Trail.exists_cons {v w : Window σ} {ts : List Token} (h : w.Trail ts v) :
    ∃ us, ts = w.current :: us := by
  cases h with
  | here => exact ⟨[], rfl⟩
  | step => exact ⟨_, rfl⟩

theorem bareExpression_trails {w : Window σ} (heof : w.current.kind ≠ .eof)
    (hlet : w.current.kind ≠ .letWord) (hreturn : w.current.kind ≠ .returnWord) :
    (bareExpression w).1.TrailsStatement w := by
  obtain ⟨ts, htrail, hwalk⟩ := readings_trail.1 .lowest w
  have hagrees := readings_agree.1 .lowest w
  obtain ⟨us, rfl⟩ := htrail.exists_cons
  rw [bareExpression_eq]
  split
  · refine ⟨_, htrail.advance, ?_⟩
    intro s hs
    obtain rfl := Option.some.inj hs
    exact ⟨rfl, ⟨heof, hlet, hreturn, hagrees⟩, hwalk.trans (List.sublist_append_left _ _)⟩
  · refine ⟨us, htrail, ?_⟩
    intro s hs
    obtain rfl := Option.some.inj hs
    exact ⟨rfl, ⟨heof, hlet, hreturn, hagrees⟩, hwalk⟩

/-- **Statements begin where they are read, and are walked along their trails.** -/
theorem statement_trails {w : Window σ} (heof : w.current.kind ≠ .eof) :
    (statement w).TrailsStatement w := by
  by_cases hlet : w.current.kind = .letWord
  · rw [statement_eq_binding hlet]
    exact binding_trails hlet
  by_cases hreturn : w.current.kind = .returnWord
  · rw [statement_eq_returning hreturn]
    exact returning_trails hreturn
  · rw [statement_eq_bareExpression hlet hreturn]
    exact bareExpression_trails heof hlet hreturn

/-- The statements of a program agree with their tokens, whatever hands them out. -/
theorem statements_agree (w : Window σ) : ∀ s ∈ (statements w).value, s.Agrees := by
  fun_induction statements w with
  | case1 w h => simp [Reading.here]
  | case2 w h first more ih =>
    obtain ⟨_, -, hfirst⟩ := statement_trails h
    intro s hs
    rcases List.mem_append.1 hs with hs | hs
    · exact (hfirst s (Option.mem_toList.1 hs)).2.1
    · exact ih s hs

theorem parse_agrees (source : σ) : ∀ s ∈ (parse source).1.statements, s.Agrees :=
  statements_agree _

end Trails

/-! ### Rounds -/

/-- A round of the reading of a program: the tokens it passes over, and the statement it gives,
if any. -/
structure Round where
  /-- The tokens. -/
  tokens : List Token
  /-- The statement. -/
  statement : Option Statement

/-- A round of the reading of a program, with the errors that are found in it. -/
structure Turn where
  /-- The round. -/
  round : Round
  /-- The errors. -/
  errors : List SyntaxError

section Rounds

open Window

variable {e : Token} (he : e.kind = .eof)

/-- The rounds in which a list of tokens is read, and the tokens that are left after them.  In each
round a statement is read at the first token that is left; the next round begins after the last
token of the statement.  There are no more rounds where an end of input comes first. -/
inductive Rounds : List Token → List Round → List Token → Prop where
  /-- The input ends. -/
  | done {ts : List Token} : (along he ts).current.kind = .eof → Rounds ts [] ts
  /-- A round, and those after it. -/
  | round {ts later rest : List Token} {rounds : List Round} :
      (along he (ts ++ later)).current.kind ≠ .eof →
      (statement (along he (ts ++ later))).window.advance = along he later →
      Rounds later rounds rest →
      Rounds (ts ++ later) (⟨ts, (statement (along he (ts ++ later))).value⟩ :: rounds) rest

/-- A trail along a list of tokens goes over an initial part of it, and perhaps over ends of input
after its last token. -/
theorem exists_of_trail_along {w v : Window Replay} {ts : List Token} (h : w.Trail ts v) :
    ∀ us, w = along he us → ∃ passed later n, us = passed ++ later ∧
      ts = passed ++ List.replicate n e ∧ v.advance = along he later := by
  induction h with
  | here w =>
    rintro us rfl
    cases us with
    | nil => exact ⟨[], [], 1, rfl, rfl, rfl⟩
    | cons u us => exact ⟨[u], us, 0, rfl, rfl, rfl⟩
  | step _ ih =>
    rintro us rfl
    cases us with
    | nil =>
      obtain ⟨passed, later, n, hus, rfl, hv⟩ := ih [] rfl
      obtain ⟨rfl, rfl⟩ := List.append_eq_nil_iff.1 hus.symm
      exact ⟨[], [], n + 1, rfl, rfl, hv⟩
    | cons u us =>
      obtain ⟨passed, later, n, rfl, rfl, hv⟩ := ih us rfl
      exact ⟨u :: passed, later, n, rfl, rfl, hv⟩

include he in
/-- Tokens that are not ends of input are not among the ends of input after others. -/
theorem sublist_of_sublist_append {ts passed : List Token} {n : Nat}
    (h : ts.Sublist (passed ++ List.replicate n e)) (hts : ∀ t ∈ ts, t.kind ≠ .eof) :
    ts.Sublist passed := by
  obtain ⟨front, back, rfl, hfront, hback⟩ := List.sublist_append_iff.1 h
  obtain rfl : back = [] := by
    rw [List.eq_nil_iff_forall_not_mem]
    intro t ht
    obtain ⟨-, rfl⟩ := List.mem_replicate.1 (hback.subset ht)
    exact hts t (List.mem_append_right _ ht) he
  rwa [List.append_nil]

/-- A round is faithful to its tokens: there is one at least, its statement begins with the first of
them, agrees with its tokens, and has them among those of the round, in the same order. -/
structure Round.Faithful (r : Round) : Prop where
  /-- The round passes over a token. -/
  nonempty : r.tokens ≠ []
  /-- The statement begins with the first token. -/
  token : ∀ s ∈ r.statement, r.tokens.head? = some s.token
  /-- It agrees with its tokens. -/
  agrees : ∀ s ∈ r.statement, s.Agrees
  /-- It has them among those of the round. -/
  walk : ∀ s ∈ r.statement, s.walk.Sublist r.tokens

/-- **A statement is read in a round that is faithful to its tokens.** -/
theorem exists_round {ts : List Token} (h : (along he ts).current.kind ≠ .eof) :
    ∃ passed later, ts = passed ++ later ∧
      (statement (along he ts)).window.advance = along he later ∧
      (⟨passed, (statement (along he ts)).value⟩ : Round).Faithful := by
  obtain ⟨us, htrail, hvalue⟩ := statement_trails h
  obtain ⟨passed, later, n, rfl, hus, hnext⟩ := exists_of_trail_along he htrail ts rfl
  refine ⟨passed, later, rfl, hnext, ?_⟩
  -- the current token is not an end of input, so it is one of the list
  have hhead : passed.head? = some (along he (passed ++ later)).current := by
    cases passed with
    | nil =>
      have hmem : (along he ([] ++ later)).current ∈ [] ++ List.replicate n e := by
        rw [← hus]
        exact List.mem_cons_self
      have hcurrent := (List.mem_replicate.1 hmem).2
      rw [hcurrent] at h
      exact absurd he h
    | cons t more => rfl
  have hne : passed ≠ [] := by
    rintro rfl
    cases hhead
  refine ⟨hne, ?_, ?_, ?_⟩
  · intro s hs
    rw [(hvalue s hs).1]
    exact hhead
  · intro s hs
    exact (hvalue s hs).2.1
  · intro s hs
    obtain ⟨-, hagrees, hwalk⟩ := hvalue s hs
    rw [hus] at hwalk
    exact sublist_of_sublist_append he hwalk hagrees.kind_ne_eof

/-- **A program is read in turns**, one for each statement that is looked for, and its errors are
those of the turns.  What is the case for every turn at the start of a list of tokens is the case
for all of them. -/
theorem exists_turns_of {P : Turn → Prop}
    (hturn : ∀ ts, (along he ts).current.kind ≠ .eof → ∃ passed later, ts = passed ++ later ∧
      (statement (along he ts)).window.advance = along he later ∧
      P ⟨⟨passed, (statement (along he ts)).value⟩, (statement (along he ts)).errors⟩)
    (w : Window Replay) : ∀ ts, w = along he ts → ∃ turns : List Turn, ∃ rest,
      Rounds he ts (turns.map Turn.round) rest ∧
        (statements w).value = turns.filterMap (·.round.statement) ∧
        (statements w).errors = turns.flatMap Turn.errors ∧ ∀ turn ∈ turns, P turn := by
  fun_induction statements w with
  | case1 w h =>
    rintro ts rfl
    exact ⟨[], ts, .done h, rfl, rfl, by simp⟩
  | case2 w h first more ih =>
    rintro ts rfl
    obtain ⟨passed, later, rfl, hnext, hfirst⟩ := hturn ts h
    obtain ⟨turns, rest, hrounds, hvalue, herrors, hall⟩ := ih later hnext
    refine ⟨⟨⟨passed, _⟩, _⟩ :: turns, rest, .round h hnext hrounds, ?_, ?_,
      List.forall_mem_cons.2 ⟨hfirst, hall⟩⟩
    · have hmore : more.value = turns.filterMap (·.round.statement) := hvalue
      rw [List.filterMap_cons, hmore]
      cases hfirst : first.value with
      | none => exact List.nil_append _
      | some s => rfl
    · have hmore : more.errors = turns.flatMap Turn.errors := herrors
      rw [List.flatMap_cons, hmore]

/-- **A program is read in rounds**, and all of them are faithful to their tokens. -/
theorem exists_rounds (w : Window Replay) (ts : List Token) (hw : w = along he ts) :
    ∃ rounds rest, Rounds he ts rounds rest ∧
      (statements w).value = rounds.filterMap Round.statement ∧ ∀ r ∈ rounds, r.Faithful := by
  obtain ⟨turns, rest, hrounds, hvalue, -, hfaithful⟩ :=
    exists_turns_of (P := fun turn => turn.round.Faithful) he (fun _ h => exists_round he h) w ts hw
  refine ⟨turns.map Turn.round, rest, hrounds, ?_, ?_⟩
  · rw [hvalue, List.filterMap_map]
    rfl
  · intro r hr
    obtain ⟨turn, hturn, rfl⟩ := List.mem_map.1 hr
    exact hfaithful turn hturn

/-- The rounds pass over all tokens but those that are left. -/
theorem Rounds.tokens_eq {ts rest : List Token} {rounds : List Round}
    (h : Rounds he ts rounds rest) : ts = rounds.flatMap Round.tokens ++ rest := by
  induction h with
  | done => rfl
  | round _ _ _ ih => rw [List.flatMap_cons, List.append_assoc, ← ih]

omit e in
/-- The statements of faithful rounds are walked along the tokens of the rounds. -/
theorem walk_sublist_of_faithful {rounds : List Round} (h : ∀ r ∈ rounds, r.Faithful) :
    (Program.mk (rounds.filterMap Round.statement)).walk.Sublist
      (rounds.flatMap Round.tokens) := by
  induction rounds with
  | nil => exact .slnil
  | cons r rounds ih =>
    obtain ⟨hround, hrounds⟩ := List.forall_mem_cons.1 h
    have hmore := ih hrounds
    rw [List.filterMap_cons, List.flatMap_cons]
    cases hstatement : r.statement with
    | none => exact hmore.trans (List.sublist_append_right _ _)
    | some s => exact (hround.walk s hstatement).append hmore

end Rounds

/-- **The tree of a program is faithful to its tokens**, whatever mistakes there are.  Walked in
order, it has tokens of the input in their order, none of them an end of input.  Its nodes agree
with their tokens.  The input is read in rounds, one after the other: each statement comes from one
of them, begins with the first token of its round, and has all its tokens there. -/
theorem parse_ofTokens_walk (ts : List Token) :
    let p := (parse (Replay.ofTokens ts)).1
    p.walk.Sublist ts ∧ (∀ t ∈ p.walk, t.kind ≠ .eof) ∧ (∀ s ∈ p.statements, s.Agrees) ∧
      ∃ rounds rest, Rounds (Replay.ofTokens ts).kind_eof ts rounds rest ∧
        ts = rounds.flatMap Round.tokens ++ rest ∧
        p.statements = rounds.filterMap Round.statement ∧
        ∀ r ∈ rounds, ∀ s ∈ r.statement,
          r.tokens.head? = some s.token ∧ s.walk.Sublist r.tokens := by
  intro p
  obtain ⟨rounds, rest, hrounds, hvalue, hfaithful⟩ :=
    exists_rounds (Replay.ofTokens ts).kind_eof _ ts rfl
  have hp : p = ⟨rounds.filterMap Round.statement⟩ := congrArg Program.mk hvalue
  have htokens := hrounds.tokens_eq
  have hagrees : ∀ s ∈ p.statements, s.Agrees := by
    rw [hp]
    intro s hs
    obtain ⟨r, hr, hs⟩ := List.mem_filterMap.1 hs
    exact (hfaithful r hr).agrees s hs
  refine ⟨?_, ?_, hagrees, rounds, rest, hrounds, htokens, by rw [hp], ?_⟩
  · rw [hp, htokens]
    exact (walk_sublist_of_faithful hfaithful).trans (List.sublist_append_left _ _)
  · intro t ht
    obtain ⟨s, hs, ht⟩ := List.mem_flatMap.1 ht
    exact (hagrees s hs).kind_ne_eof t ht
  · intro r hr s hs
    exact ⟨(hfaithful r hr).token s hs, (hfaithful r hr).walk s hs⟩

end Sapling
