import Sapling.Token

/-!
# Streams of tokens

A stream hands out one token at a time.  It may hand out any tokens, ends of input among them, but
only finitely many that are not ends of input: `remaining` bounds their number, and after them every
token is an end of input.

## Main definitions

* `TokenStream` — anything that tokens can be pulled from.
* `TokenStream.drain` — all tokens before the first end of input, and that end.
* `Replay` — a list of tokens, handed out again.
* `Handle` — a stream behind a reference.
-/

namespace Sapling

/-- A state that tokens can be pulled from. -/
class TokenStream (σ : Type) where
  /-- The next token, and the stream without it. -/
  next : σ → Token × σ
  /-- A bound on the number of tokens to come that are not ends of input. -/
  remaining : σ → Nat
  /-- Each token that is not an end of input uses up the bound by one. -/
  remaining_next : ∀ s : σ, remaining (next s).2 + (next s).1.weight ≤ remaining s

namespace TokenStream

variable {σ : Type} [TokenStream σ]

/-- Pulls tokens up to the first end of input.  Answers the tokens before it and the end itself. -/
def drain (s : σ) : List Token × Token :=
  if (next s).1.kind = .eof then ([], (next s).1)
  else
    let later := drain (next s).2
    ((next s).1 :: later.1, later.2)
termination_by remaining s
decreasing_by
  have := remaining_next s
  rename_i h
  rw [Token.weight_eq_one h] at this
  omega

/-- Pulls `n` tokens, whatever they are. -/
def pull : Nat → σ → List Token × σ
  | 0, s => ([], s)
  | n + 1, s =>
    let later := pull n (next s).2
    ((next s).1 :: later.1, later.2)

end TokenStream

/-- Tokens that are already there, to be handed out again.  The list may hold ends of input too. -/
structure Replay where
  /-- The tokens to come. -/
  tokens : List Token
  /-- What is handed out when the list is used up. -/
  eof : Token
  /-- It is an end of input. -/
  kind_eof : eof.kind = .eof

namespace Replay

/-- Hands out the tokens of a list; the end of the input is put right after the last of them. -/
def ofTokens (tokens : List Token) : Replay :=
  ⟨tokens, .eof (tokens.getLast?.elim 0 fun t => t.span.stop), rfl⟩

/-- The next token, and what is left. -/
def next (r : Replay) : Token × Replay :=
  match r.tokens with
  | [] => (r.eof, r)
  | t :: ts => (t, ⟨ts, r.eof, r.kind_eof⟩)

instance : TokenStream Replay where
  next := next
  remaining r := r.tokens.length
  remaining_next r := by
    obtain ⟨tokens, eof, h⟩ := r
    cases tokens with
    | nil => simp [next, Token.weight_eq_zero h]
    | cons t ts => simpa [next] using t.weight_le_one

end Replay

/-- A stream behind a reference, which may own it or borrow it.  It hands out the tokens of the
stream it stands for, and moves that stream on. -/
structure Handle (σ : Type) where
  /-- The stream it stands for. -/
  stream : σ
  deriving Repr, Inhabited

namespace Handle

variable {σ : Type} [TokenStream σ]

/-- The next token of the stream it stands for. -/
def next (h : Handle σ) : Token × Handle σ :=
  let pulled := TokenStream.next h.stream
  (pulled.1, ⟨pulled.2⟩)

instance : TokenStream (Handle σ) where
  next := next
  remaining h := TokenStream.remaining h.stream
  remaining_next h := TokenStream.remaining_next h.stream

end Handle

namespace TokenStream

variable {σ : Type} [TokenStream σ]

theorem kind_snd_drain (s : σ) : (drain s).2.kind = .eof := by
  fun_induction drain s with
  | case1 s h => exact h
  | case2 s h later ih => exact ih

/-- All tokens of a stream up to its first end of input, collected for handing out again. -/
def collect (s : σ) : Replay := ⟨(drain s).1, (drain s).2, kind_snd_drain s⟩

end TokenStream

end Sapling
