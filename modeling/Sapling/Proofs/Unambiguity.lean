import Mathlib.Logic.Relation
import Sapling.Proofs.Grammar

/-!
# The grammar is unambiguous

No two derivation trees have the same tokens.  For phrases this is shown in a stronger form, with
more tokens after them: if these do not continue the phrases, both the phrases and the tokens after
them are the same (`Derives.unique`).

Two phrases that begin at the same token need not be the same, since one may be what the other
applies an operator or a call to.  So what is proved along the derivations is that one stands on the
*left spine* of the other.

## Main definitions

* `Phrase.Spine` — one phrase is the left operand, or what is called, in another, some levels down.
* `Ends`, `Stops` — the tokens that may come after a phrase.

## Main results

* `Derives.spine_or_spine` — of two phrases that begin alike, one is on the left spine of the other.
* `Derives.unique` — phrases are determined by the tokens that they begin.
* `Script.tokens_injective` — derivation trees of programs are determined by their tokens.
-/

namespace Sapling

/-! ### What may come after a phrase -/

/-- The tokens do not continue an expression in the context `p`: if they begin with an operator or
the arguments of a call, these bind at most as tightly as `p`. -/
def Ends (p : Precedence) (rest : List Token) : Prop :=
  ∀ t ∈ rest.head?, ∀ s ∈ Suffix.ofKind? t.kind, s.precedence ≤ p

/-- The tokens do not continue a phrase of level `p`: if they begin with an operator or the
arguments of a call, these bind less tightly than `p`. -/
def Stops (p : Precedence) (rest : List Token) : Prop :=
  ∀ t ∈ rest.head?, ∀ s ∈ Suffix.ofKind? t.kind, s.precedence < p

/-- Nothing binds more tightly than a call. -/
theorem ends_call (rest : List Token) : Ends .call rest :=
  fun _ _ s _ => Precedence.le_call s.precedence

theorem Ends.mono {p q : Precedence} {rest : List Token} (h : Ends p rest) (hpq : p ≤ q) :
    Ends q rest :=
  fun t ht s hs => Precedence.le_trans (h t ht s hs) hpq

theorem stops_of_ofKind?_eq_none {p : Precedence} {t : Token} (h : Suffix.ofKind? t.kind = none)
    (rest : List Token) : Stops p (t :: rest) := by
  intro u hu s hs
  obtain rfl : t = u := by simpa using hu
  rw [h] at hs
  simp at hs

theorem stops_of_comma {p : Precedence} {t : Token} (h : t.kind = .comma) (rest : List Token) :
    Stops p (t :: rest) :=
  stops_of_ofKind?_eq_none (by rw [h]; rfl) rest

theorem stops_of_rightParen {p : Precedence} {t : Token} (h : t.kind = .rightParen)
    (rest : List Token) : Stops p (t :: rest) :=
  stops_of_ofKind?_eq_none (by rw [h]; rfl) rest

theorem Stops.ends {p : Precedence} {rest : List Token} (h : Stops p rest) : Ends p rest :=
  fun t ht s hs => Precedence.le_of_lt (h t ht s hs)

/-- What does not continue phrases of a level can come after each phrase of it. -/
theorem Derives.ends {p : Precedence} {d : Phrase} (h : Derives p d) {rest : List Token}
    (hs : Stops p rest) : Ends d.level rest := by
  intro t ht s hsuf
  exact Precedence.le_trans (Precedence.le_of_lt (hs t ht s hsuf)) h.le_level

/-! ### Left spines -/

namespace Phrase

/-- The second phrase applies an operator or a call to the first. -/
inductive Extends : Phrase → Phrase → Prop where
  /-- An operator with its right operand is put after the phrase. -/
  | binary (l : Phrase) (t : Token) (op : BinaryOp) (r : Phrase) : Extends l (.binary l t op r)
  /-- Arguments are put after the phrase. -/
  | call (f : Phrase) (opening : Token) (args : Arguments) (closing : Token) :
      Extends f (.call f opening args closing)

/-- The first phrase is on the left spine of the second. -/
abbrev Spine : Phrase → Phrase → Prop := Relation.ReflTransGen Extends

end Phrase

open Phrase

/-- No operators are opening parentheses. -/
theorem UnaryOp.ne_leftParen {kind : TokenKind} {op : UnaryOp} (h : ofKind? kind = some op) :
    kind ≠ .leftParen := by
  rintro rfl
  cases h

theorem BinaryOp.ne_leftParen {kind : TokenKind} {op : BinaryOp} (h : ofKind? kind = some op) :
    kind ≠ .leftParen := by
  rintro rfl
  cases h

theorem suffix_of_binary {t : Token} {op : BinaryOp} (h : BinaryOp.ofKind? t.kind = some op) :
    Suffix.ofKind? t.kind = some (.operator op) := by
  rw [Suffix.ofKind?, if_neg (BinaryOp.ne_leftParen h), h]
  rfl

theorem suffix_of_leftParen {t : Token} (h : t.kind = .leftParen) :
    Suffix.ofKind? t.kind = some .call := by
  rw [h]
  rfl

/-- What a phrase adds to the one it extends begins with an operator or a call that binds as tightly
as the whole, and not more tightly than the part. -/
theorem Phrase.Extends.tokens {p : Precedence} {d e : Phrase} (h : d.Extends e)
    (he : Derives p e) :
    Derives e.level d ∧ ∃ t more s, e.tokens = d.tokens ++ t :: more ∧
      Suffix.ofKind? t.kind = some s ∧ s.precedence = e.level := by
  cases h with
  | binary t op r =>
    cases he with
    | binary _ hl ht _ =>
      exact ⟨hl, t, r.tokens, .operator op, by rw [Phrase.tokens], suffix_of_binary ht, rfl⟩
  | call opening args closing =>
    cases he with
    | call hf ho _ _ =>
      exact ⟨hf, opening, args.tokens ++ [closing], .call, by rw [Phrase.tokens],
        suffix_of_leftParen ho, rfl⟩

/-- The same along a left spine, whose phrases bind the less tightly the more they take in. -/
theorem Phrase.Spine.tokens {p : Precedence} {d e : Phrase} (h : d.Spine e) (he : Derives p e) :
    Derives e.level d ∧ (d = e ∨ ∃ t more s, e.tokens = d.tokens ++ t :: more ∧
      Suffix.ofKind? t.kind = some s ∧ e.level ≤ s.precedence ∧ s.precedence ≤ d.level) := by
  induction h generalizing p with
  | refl => exact ⟨he.of_le_level (Precedence.le_refl _), Or.inl rfl⟩
  | @tail e' e _ hstep ih =>
    -- what `e` adds to `e'` comes after what `e'` adds to `d`, if it adds anything
    obtain ⟨he', t, more, s, htok, hs, hlevel⟩ := hstep.tokens he
    have hle : e.level ≤ e'.level := he'.le_level
    obtain ⟨hd, hcase⟩ := ih he'
    refine ⟨hd.mono hle, Or.inr ?_⟩
    rcases hcase with rfl | ⟨t', more', s', htok', hs', hge, hle'⟩
    · exact ⟨t, more, s, htok, hs, hlevel ▸ Precedence.le_refl _, hlevel ▸ hle⟩
    · refine ⟨t', more' ++ t :: more, s', ?_, hs', Precedence.le_trans hle hge, hle'⟩
      rw [htok, htok', List.append_assoc, List.cons_append]

/-- Tokens that may follow a phrase may follow each phrase on its left spine, after those of the
whole phrase that are not its own. -/
theorem Phrase.Spine.exists_append {p : Precedence} {d e : Phrase} (h : d.Spine e)
    (he : Derives p e) {rest : List Token} (hrest : Ends e.level rest) :
    ∃ more, e.tokens = d.tokens ++ more ∧ Ends d.level (more ++ rest) := by
  obtain ⟨-, rfl | ⟨t, more, s, htok, hs, -, hle⟩⟩ := h.tokens he
  · exact ⟨[], (List.append_nil _).symm, hrest⟩
  · refine ⟨t :: more, htok, ?_⟩
    intro u hu x hx
    obtain rfl : t = u := by simpa using hu
    obtain rfl : s = x := by simpa [hs] using hx
    exact hle

/-- A phrase on the left spine of another, with tokens after it that do not bind it, is the other.
-/
theorem Phrase.Spine.eq_of_stops {p : Precedence} {d e : Phrase} (h : d.Spine e)
    (he : Derives p e) {r s : List Token} (hr : Stops p r) (htok : d.tokens ++ r = e.tokens ++ s) :
    d = e := by
  obtain ⟨-, hde | ⟨t, more, x, hmore, hx, hle, -⟩⟩ := h.tokens he
  · exact hde
  · -- otherwise `r` begins with what the other phrase goes on with, and that binds as tightly as it
    rw [hmore, List.append_assoc, List.append_cancel_left_eq] at htok
    have hlt : x.precedence < p := hr t (by rw [htok]; rfl) x (by rw [hx]; rfl)
    exact absurd (Precedence.le_trans he.le_level hle) (Nat.not_le.2 hlt)

/-- Comparable phrases with tokens after them that do not bind them are the same. -/
theorem eq_of_spine_or_spine {p : Precedence} {d e : Phrase} (hd : Derives p d) (he : Derives p e)
    (h : d.Spine e ∨ e.Spine d) {r s : List Token} (hr : Stops p r) (hs : Stops p s)
    (htok : d.tokens ++ r = e.tokens ++ s) : d = e ∧ r = s := by
  have hde : d = e := by
    rcases h with h | h
    · exact h.eq_of_stops he hr htok
    · exact (h.eq_of_stops hd hs htok.symm).symm
  subst hde
  exact ⟨rfl, List.append_cancel_left htok⟩

/-! ### Parts of phrases -/

/-- Phrases smaller than `n` are determined by the tokens that they begin. -/
def UniqueBelow (n : Nat) : Prop :=
  ∀ {p : Precedence} {d e : Phrase} {r s : List Token}, sizeOf d < n → Derives p d → Derives p e →
    Stops p r → Stops p s → d.tokens ++ r = e.tokens ++ s → d = e ∧ r = s

/-- Further arguments, and the parenthesis that closes them, do not bind what is before them. -/
theorem DerivesMore.stops {p : Precedence} {m : MoreArguments} (h : DerivesMore m) {c : Token}
    (hc : c.kind = .rightParen) (rest : List Token) : Stops p (m.tokens ++ c :: rest) := by
  cases h with
  | nil => exact stops_of_rightParen hc rest
  | cons hcomma _ _ => exact stops_of_comma hcomma _

/-- Further arguments are determined by the tokens up to the parenthesis that closes them. -/
theorem DerivesMore.unique {n : Nat} (ih : UniqueBelow n) {c c' : Token}
    (hc : c.kind = .rightParen) (hc' : c'.kind = .rightParen) {r s : List Token} :
    ∀ {m m' : MoreArguments}, sizeOf m ≤ n → DerivesMore m → DerivesMore m' →
      m.tokens ++ c :: r = m'.tokens ++ c' :: s → m = m' ∧ c = c' ∧ r = s
  | .nil, .nil, _, _, _, h => by
    simp only [MoreArguments.tokens, List.nil_append, List.cons.injEq] at h
    exact ⟨rfl, h⟩
  | .nil, .cons comma _ _, _, _, .cons hcomma _ _, h => by
    simp only [MoreArguments.tokens, List.nil_append, List.cons_append, List.cons.injEq] at h
    rw [h.1, hcomma] at hc
    cases hc
  | .cons comma _ _, .nil, _, .cons hcomma _ _, _, h => by
    simp only [MoreArguments.tokens, List.nil_append, List.cons_append, List.cons.injEq] at h
    rw [← h.1, hcomma] at hc'
    cases hc'
  | .cons comma d m, .cons comma' d' m', hn, .cons _ hd hm, .cons _ hd' hm', h => by
    simp only [MoreArguments.tokens, List.cons_append, List.append_assoc, List.cons.injEq] at h
    simp only [MoreArguments.cons.sizeOf_spec] at hn
    obtain ⟨rfl, h⟩ := h
    obtain ⟨rfl, hrest⟩ := ih (by omega) hd hd' (hm.stops hc r) (hm'.stops hc' s) h
    obtain ⟨rfl, hclose⟩ := DerivesMore.unique ih hc hc' (by omega) hm hm' hrest
    exact ⟨rfl, hclose⟩

/-- No phrase begins with a closing parenthesis. -/
theorem Derives.ne_rightParen_cons {p : Precedence} {d : Phrase} (h : Derives p d) {c : Token}
    (hc : c.kind = .rightParen) (u v : List Token) : c :: u ≠ d.tokens ++ v := by
  intro heq
  obtain ⟨more, hmore⟩ := d.tokens_eq_cons
  rw [hmore, List.cons_append, List.cons.injEq] at heq
  exact h.startsPhrase.ne (by decide) (heq.1 ▸ hc)

/-- Arguments are determined by the tokens up to the parenthesis that closes them. -/
theorem DerivesArguments.unique {n : Nat} (ih : UniqueBelow n) {c c' : Token}
    (hc : c.kind = .rightParen) (hc' : c'.kind = .rightParen) {r s : List Token}
    {a a' : Arguments} (hn : sizeOf a ≤ n) (ha : DerivesArguments a) (ha' : DerivesArguments a')
    (h : a.tokens ++ c :: r = a'.tokens ++ c' :: s) : a = a' ∧ c = c' ∧ r = s := by
  cases ha with
  | none =>
    cases ha' with
    | none =>
      simp only [Arguments.tokens, List.nil_append, List.cons.injEq] at h
      exact ⟨rfl, h⟩
    | some hd' hm' =>
      simp only [Arguments.tokens, List.nil_append, List.append_assoc] at h
      exact absurd h (hd'.ne_rightParen_cons hc _ _)
  | @some d m hd hm =>
    cases ha' with
    | none =>
      simp only [Arguments.tokens, List.nil_append, List.append_assoc] at h
      exact absurd h.symm (hd.ne_rightParen_cons hc' _ _)
    | @some d' m' hd' hm' =>
      simp only [Arguments.tokens, List.append_assoc] at h
      simp only [Arguments.some.sizeOf_spec] at hn
      obtain ⟨rfl, hrest⟩ := ih (by omega) hd hd' (hm.stops hc r) (hm'.stops hc' s) h
      obtain ⟨rfl, hclose⟩ := DerivesMore.unique ih hc hc' (by omega) hm hm' hrest
      exact ⟨rfl, hclose⟩

/-! ### Phrases that begin alike -/

/-- The phrases that extend no other: a left spine ends in one. -/
def Phrase.IsOpening (d : Phrase) : Prop := ∀ l : Phrase, ¬ l.Extends d

theorem Phrase.isOpening_or_extends (d : Phrase) :
    d.IsOpening ∨ ∃ l : Phrase, l.Extends d ∧ sizeOf l < sizeOf d := by
  cases d with
  | binary l t op r =>
    exact Or.inr ⟨l, .binary l t op r, by simp only [Phrase.binary.sizeOf_spec]; omega⟩
  | call f opening args closing =>
    exact Or.inr ⟨f, .call f opening args closing, by simp only [Phrase.call.sizeOf_spec]; omega⟩
  | _ => exact Or.inl nofun

/-- Every left spine ends in a phrase that extends no other. -/
theorem Phrase.exists_isOpening (d : Phrase) : ∃ o : Phrase, o.IsOpening ∧ o.Spine d := by
  rcases d.isOpening_or_extends with h | ⟨l, hl, hlt⟩
  · exact ⟨d, h, .refl⟩
  · obtain ⟨o, ho, hspine⟩ := l.exists_isOpening
    exact ⟨o, ho, hspine.tail hl⟩
termination_by sizeOf d

theorem Atom.unique {t : Token} {e e' : Expr} (h : Atom t e) (h' : Atom t e') : e = e' := by
  cases h <;> cases h' <;> simp_all

/-- Single tokens that are expressions do not open parentheses. -/
theorem Atom.not_leftParen {t : Token} {e : Expr} (h : Atom t e) : t.kind ≠ .leftParen := by
  cases h <;> simp_all

/-- Single tokens that are expressions are no operators. -/
theorem Atom.kind_ne {t : Token} {e : Expr} (h : Atom t e) {kind : TokenKind} {op : UnaryOp}
    (hop : UnaryOp.ofKind? kind = some op) : t.kind ≠ kind := by
  rintro rfl
  cases h <;> simp_all [UnaryOp.ofKind?]

/-- What may follow an operator with its operand does not bind the operand. -/
theorem Ends.stops_unary {rest : List Token} (h : Ends .unary rest) : Stops .unary rest := by
  intro u hu s hs
  exact Suffix.precedence_lt_unary (h u hu s hs)

/-- What may follow an operator with its operands does not bind the right one. -/
theorem Ends.stops_right {op : BinaryOp} {rest : List Token} (h : Ends op.precedence rest) :
    Stops op.precedence.right rest := by
  intro u hu s hs
  exact Nat.lt_of_le_of_lt (h u hu s hs) op.precedence_lt_right

/-- Phrases that extend no other and begin alike are the same. -/
theorem Phrase.IsOpening.unique {p q : Precedence} {d e : Phrase} (ih : UniqueBelow (sizeOf d))
    (hd : Derives p d) (he : Derives q e) (hod : d.IsOpening) (hoe : e.IsOpening)
    {r s : List Token} (hr : Ends d.level r) (hs : Ends e.level s)
    (h : d.tokens ++ r = e.tokens ++ s) : d = e := by
  -- the first token tells which of the three forms a phrase has
  have hfirst : d.first = e.first := first_eq_of_append h
  have hkind : d.first.kind = e.first.kind := congrArg Token.kind hfirst
  cases hd with
  | binary => exact absurd (.binary _ _ _ _) (hod _)
  | call => exact absurd (.call _ _ _ _) (hod _)
  | operand ha =>
    cases he with
    | binary => exact absurd (.binary _ _ _ _) (hoe _)
    | call => exact absurd (.call _ _ _ _) (hoe _)
    | operand ha' =>
      simp only [Phrase.first] at hfirst
      subst hfirst
      rw [ha.unique ha']
    | group ho' => exact absurd (hkind.trans ho') ha.not_leftParen
    | unary _ ht' => exact absurd hkind (ha.kind_ne ht')
  | group ho hd hc =>
    cases he with
    | binary => exact absurd (.binary _ _ _ _) (hoe _)
    | call => exact absurd (.call _ _ _ _) (hoe _)
    | operand ha' => exact absurd (hkind.symm.trans ho) ha'.not_leftParen
    | group _ hd' hc' =>
      simp only [Phrase.tokens, List.cons_append, List.append_assoc, List.cons.injEq] at h
      obtain ⟨rfl, h⟩ := h
      obtain ⟨rfl, hrest⟩ := ih (by simp only [Phrase.group.sizeOf_spec]; omega) hd hd'
        (stops_of_rightParen hc _) (stops_of_rightParen hc' _) h
      simp only [List.nil_append, List.cons.injEq] at hrest
      rw [hrest.1]
    | unary _ ht' => exact absurd (hkind.symm.trans ho) (UnaryOp.ne_leftParen ht')
  | unary _ ht hd =>
    cases he with
    | binary => exact absurd (.binary _ _ _ _) (hoe _)
    | call => exact absurd (.call _ _ _ _) (hoe _)
    | operand ha' => exact absurd hkind.symm (ha'.kind_ne ht)
    | group ho' => exact absurd (hkind.trans ho') (UnaryOp.ne_leftParen ht)
    | unary _ ht' hd' =>
      simp only [Phrase.tokens, List.cons_append, List.cons.injEq] at h
      obtain ⟨rfl, h⟩ := h
      obtain rfl := Option.some.inj (ht.symm.trans ht')
      obtain ⟨rfl, -⟩ := ih (by simp only [Phrase.unary.sizeOf_spec]; omega) hd hd'
        (Ends.stops_unary hr) (Ends.stops_unary hs) h
      rfl

/-- Phrases that extend the same one and begin alike are the same. -/
theorem Phrase.Extends.unique {p q : Precedence} {l d e : Phrase} (ih : UniqueBelow (sizeOf d))
    (hd : Derives p d) (he : Derives q e) (hld : l.Extends d) (hle : l.Extends e)
    {r s : List Token} (hr : Ends d.level r) (hs : Ends e.level s)
    (h : d.tokens ++ r = e.tokens ++ s) : d = e := by
  cases hld with
  | binary t op right =>
    cases hd with
    | binary _ _ ht hright =>
      cases hle with
      | binary t' op' right' =>
        cases he with
        | binary _ _ ht' hright' =>
          simp only [Phrase.tokens, List.append_assoc, List.append_cancel_left_eq,
            List.cons_append, List.cons.injEq] at h
          obtain ⟨rfl, h⟩ := h
          obtain rfl := Option.some.inj (ht.symm.trans ht')
          obtain ⟨rfl, -⟩ := ih (by simp only [Phrase.binary.sizeOf_spec]; omega) hright hright'
            (Ends.stops_right hr) (Ends.stops_right hs) h
          rfl
      | call opening' args' closing' =>
        cases he with
        | call _ ho' _ _ =>
          simp only [Phrase.tokens, List.append_assoc, List.append_cancel_left_eq,
            List.cons_append, List.cons.injEq] at h
          exact absurd (h.1 ▸ ho') (BinaryOp.ne_leftParen ht)
  | call opening args closing =>
    cases hd with
    | call _ ho ha hc =>
      cases hle with
      | binary t' op' right' =>
        cases he with
        | binary _ _ ht' _ =>
          simp only [Phrase.tokens, List.append_assoc, List.append_cancel_left_eq,
            List.cons_append, List.cons.injEq] at h
          exact absurd (h.1 ▸ ho) (BinaryOp.ne_leftParen ht')
      | call opening' args' closing' =>
        cases he with
        | call _ _ ha' hc' =>
          simp only [Phrase.tokens, List.append_assoc, List.append_cancel_left_eq,
            List.cons_append, List.nil_append, List.cons.injEq] at h
          obtain ⟨rfl, h⟩ := h
          obtain ⟨rfl, rfl, -⟩ := DerivesArguments.unique ih hc hc'
            (by simp only [Phrase.call.sizeOf_spec]; omega) ha ha' h
          rfl

/-- Of two phrases that begin alike, one is on the left spine of the other. -/
theorem Derives.spine_or_spine {p q : Precedence} {d e : Phrase} (hd : Derives p d)
    (he : Derives q e) {r s : List Token} (hr : Ends d.level r) (hs : Ends e.level s)
    (h : d.tokens ++ r = e.tokens ++ s) : d.Spine e ∨ e.Spine d := by
  -- Strong induction on the first phrase: smaller phrases are determined by their tokens.
  induction hn : sizeOf d using Nat.strongRecOn generalizing p q d e r s with
  | _ n ih =>
    subst hn
    have unique : UniqueBelow (sizeOf d) := by
      intro p' d' e' r' s' hlt hd' he' hr' hs' h'
      exact eq_of_spine_or_spine hd' he'
        (ih _ hlt hd' he' (hd'.ends hr') (he'.ends hs') h' rfl) hr' hs' h'
    rcases d.isOpening_or_extends with hopen | ⟨l, hl, hlt⟩
    · -- what the left spine of the second phrase ends in is the first phrase
      obtain ⟨o, ho, hspine⟩ := e.exists_isOpening
      obtain ⟨more, htok, hfollow⟩ := hspine.exists_append he hs
      rw [htok, List.append_assoc] at h
      have hdo : d = o :=
        Phrase.IsOpening.unique unique hd (hspine.tokens he).1 hopen ho hr hfollow h
      exact Or.inl (hdo ▸ hspine)
    · -- compare the phrase that the first one extends
      have hspine : l.Spine d := .single hl
      obtain ⟨hld, -⟩ := hl.tokens hd
      obtain ⟨more, htok, hfollow⟩ := hspine.exists_append hd hr
      rcases ih _ hlt hld he hfollow hs (by rw [← List.append_assoc, ← htok, h]) rfl with hle | hel
      · rcases hle.cases_head with rfl | ⟨e', hle', hspine'⟩
        · exact Or.inr hspine
        · -- both extend it, and so they do it in the same way
          have hspine' : e'.Spine e := hspine'
          obtain ⟨more', htok', hfollow'⟩ := hspine'.exists_append he hs
          rw [htok', List.append_assoc] at h
          have hde : d = e' :=
            Phrase.Extends.unique unique hd (hspine'.tokens he).1 hl hle' hr hfollow' h
          exact Or.inl (hde ▸ hspine')
      · exact Or.inr (hel.tail hl)

/-- **Phrases are determined by the tokens that they begin**, if those after them do not continue
them. -/
theorem Derives.unique {p : Precedence} {d e : Phrase} (hd : Derives p d) (he : Derives p e)
    {r s : List Token} (hr : Stops p r) (hs : Stops p s) (h : d.tokens ++ r = e.tokens ++ s) :
    d = e ∧ r = s :=
  eq_of_spine_or_spine hd he (hd.spine_or_spine he (hd.ends hr) (he.ends hs) h) hr hs h

/-! ### Statements and programs -/

/-- A statement begins with `let`, with `return` or as an expression does. -/
theorem Clause.WellFormed.kind_first {c : Clause} (h : c.WellFormed) :
    c.first.kind = .letWord ∨ c.first.kind = .returnWord ∨ c.first.kind.StartsPhrase := by
  cases c with
  | binding => exact Or.inl h.1
  | returning => exact Or.inr (Or.inl h.1)
  | expression => exact Or.inr (Or.inr h.1.startsPhrase)

theorem Script.WellFormed.head_ne_semicolon {s : Script} (h : s.WellFormed) :
    ∀ t ∈ s.tokens.head?, t.kind ≠ .semicolon := by
  intro t ht hsemi
  cases s with
  | nil => simp at ht
  | cons c later =>
    obtain ⟨more, hmore⟩ := c.tokens_eq_cons
    rw [Script.tokens_cons, hmore] at ht
    obtain rfl : c.first = t := by simpa using ht
    have hkind := Clause.WellFormed.kind_first h.1
    rw [hsemi] at hkind
    exact absurd hkind (by decide)

/-- Whether a semicolon ends a statement is determined by the tokens from there on, if no other
semicolon can stand there. -/
theorem stop_unique {stop stop' : Option Token} {r s : List Token}
    (hstop : ∀ t ∈ stop, t.kind = .semicolon) (hstop' : ∀ t ∈ stop', t.kind = .semicolon)
    (hr : ∀ t ∈ r.head?, t.kind ≠ .semicolon) (hs : ∀ t ∈ s.head?, t.kind ≠ .semicolon)
    (h : stop.toList ++ r = stop'.toList ++ s) : stop = stop' ∧ r = s := by
  cases stop with
  | none =>
    cases stop' with
    | none => exact ⟨rfl, h⟩
    | some t' =>
      have hhead : t' ∈ r.head? := by simpa using congrArg List.head? h
      exact absurd (hstop' t' rfl) (hr t' hhead)
  | some t =>
    cases stop' with
    | none =>
      have hhead : t ∈ s.head? := by simpa using congrArg List.head? h.symm
      exact absurd (hstop t rfl) (hs t hhead)
    | some t' =>
      obtain ⟨rfl, hrs⟩ := List.cons.inj h
      exact ⟨rfl, hrs⟩

/-- What is passed over are the tokens up to the first semicolon. -/
theorem takeWhile_skipped {skipped : List Token} {stop : Option Token} {r : List Token}
    (hk : ∀ t ∈ skipped, t.kind ≠ .semicolon) (hstop : ∀ t ∈ stop, t.kind = .semicolon)
    (hr : stop = none → r = []) :
    (skipped ++ (stop.toList ++ r)).takeWhile (·.kind ≠ .semicolon) = skipped := by
  rw [List.takeWhile_append_of_pos (by simpa using hk)]
  cases stop with
  | none => simp [hr rfl]
  | some t => simp [hstop t rfl]

/-- What is passed over, and the semicolon that ends it, are determined by the tokens from there on.
Without a semicolon these are all that is passed over. -/
theorem skipped_unique {skipped skipped' : List Token} {stop stop' : Option Token}
    {r s : List Token} (hk : ∀ t ∈ skipped, t.kind ≠ .semicolon)
    (hk' : ∀ t ∈ skipped', t.kind ≠ .semicolon) (hstop : ∀ t ∈ stop, t.kind = .semicolon)
    (hstop' : ∀ t ∈ stop', t.kind = .semicolon) (hr : stop = none → r = [])
    (hs : stop' = none → s = []) (hr' : ∀ t ∈ r.head?, t.kind ≠ .semicolon)
    (hs' : ∀ t ∈ s.head?, t.kind ≠ .semicolon)
    (h : skipped ++ (stop.toList ++ r) = skipped' ++ (stop'.toList ++ s)) :
    skipped = skipped' ∧ stop = stop' ∧ r = s := by
  have hskipped : skipped = skipped' := by
    rw [← takeWhile_skipped hk hstop hr, h, takeWhile_skipped hk' hstop' hs]
  subst hskipped
  exact ⟨rfl, stop_unique hstop hstop' hr' hs' (List.append_cancel_left h)⟩

/-- What may come after an expression that is a statement does not continue it. -/
theorem Clause.stops_expression {d : Phrase} {stop : Option Token} {rest : List Token}
    (hstop : ∀ t ∈ stop, t.kind = .semicolon)
    (hrest : stop = none → (Clause.expression d stop).MayPrecede rest) :
    Stops .lowest (stop.toList ++ rest) := by
  cases stop with
  | some t => exact stops_of_ofKind?_eq_none (by rw [hstop t rfl]; rfl) rest
  | none =>
    intro t ht s hs
    obtain ⟨hparen, hop⟩ := hrest rfl t (by simpa using ht)
    rw [Suffix.ofKind?, if_neg hparen, hop] at hs
    simp at hs

/-- Statements are determined by the tokens that they begin, if those after them may come there. -/
theorem Clause.unique {c c' : Clause} (hc : c.WellFormed) (hc' : c'.WellFormed) {r s : List Token}
    (hr : c.stop = none → c.MayPrecede r) (hs : c'.stop = none → c'.MayPrecede s)
    (hr' : ∀ t ∈ r.head?, t.kind ≠ .semicolon) (hs' : ∀ t ∈ s.head?, t.kind ≠ .semicolon)
    (h : c.tokens ++ r = c'.tokens ++ s) : c = c' ∧ r = s := by
  -- the first token tells which form a statement has, so both have the same
  have hkind : c.first.kind = c'.first.kind := congrArg Token.kind (first_eq_of_append h)
  cases c with
  | binding t name assign skipped stop =>
    obtain ⟨ht, -, -, hk, hstop⟩ := hc
    cases c' with
    | binding t' name' assign' skipped' stop' =>
      obtain ⟨-, -, -, hk', hstop'⟩ := hc'
      simp only [Clause.tokens, List.cons_append, List.append_assoc, List.cons.injEq] at h
      obtain ⟨rfl, rfl, rfl, h⟩ := h
      obtain ⟨rfl, rfl, hrs⟩ := skipped_unique hk hk' hstop hstop' hr hs hr' hs' h
      exact ⟨rfl, hrs⟩
    | returning => exact absurd (ht.symm.trans (hkind.trans hc'.1)) (by decide)
    | expression => exact absurd (hkind.symm.trans ht) (hc'.1.startsPhrase.ne (by decide))
  | returning t skipped stop =>
    obtain ⟨ht, hk, hstop⟩ := hc
    cases c' with
    | binding => exact absurd (ht.symm.trans (hkind.trans hc'.1)) (by decide)
    | returning t' skipped' stop' =>
      obtain ⟨-, hk', hstop'⟩ := hc'
      simp only [Clause.tokens, List.cons_append, List.append_assoc, List.cons.injEq] at h
      obtain ⟨rfl, h⟩ := h
      obtain ⟨rfl, rfl, hrs⟩ := skipped_unique hk hk' hstop hstop' hr hs hr' hs' h
      exact ⟨rfl, hrs⟩
    | expression => exact absurd (hkind.symm.trans ht) (hc'.1.startsPhrase.ne (by decide))
  | expression d stop =>
    obtain ⟨hd, hstop⟩ := hc
    cases c' with
    | binding => exact absurd (hkind.trans hc'.1) (hd.startsPhrase.ne (by decide))
    | returning => exact absurd (hkind.trans hc'.1) (hd.startsPhrase.ne (by decide))
    | expression d' stop' =>
      obtain ⟨hd', hstop'⟩ := hc'
      simp only [Clause.tokens, List.append_assoc] at h
      obtain ⟨rfl, hrest⟩ := hd.unique hd' (Clause.stops_expression hstop hr)
        (Clause.stops_expression hstop' hs) h
      obtain ⟨rfl, hrs⟩ := stop_unique hstop hstop' hr' hs' hrest
      exact ⟨rfl, hrs⟩

/-- **The grammar is unambiguous**: programs have one derivation tree each. -/
theorem Script.tokens_injective : ∀ {s s' : Script}, s.WellFormed → s'.WellFormed →
    s.tokens = s'.tokens → s = s' := by
  intro s
  induction s with
  | nil =>
    intro s' _ hs' h
    cases s' with
    | nil => rfl
    | cons c' later' =>
      obtain ⟨more, hmore⟩ := c'.tokens_eq_cons
      simp [hmore] at h
  | cons c later ih =>
    intro s' hs hs' h
    cases s' with
    | nil =>
      obtain ⟨more, hmore⟩ := c.tokens_eq_cons
      simp [hmore] at h
    | cons c' later' =>
      obtain ⟨hc, hend, hlater⟩ := hs
      obtain ⟨hc', hend', hlater'⟩ := hs'
      rw [Script.tokens_cons, Script.tokens_cons] at h
      obtain ⟨rfl, hrest⟩ := Clause.unique hc hc' hend hend'
        (Script.WellFormed.head_ne_semicolon hlater) (Script.WellFormed.head_ne_semicolon hlater') h
      rw [ih hlater hlater' hrest]

end Sapling
