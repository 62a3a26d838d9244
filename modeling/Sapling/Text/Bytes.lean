/-!
# Byte positions in text

A text is a list of characters, and every position in it is counted in bytes of its UTF-8 form.  A
position is usable for cutting only if it is a *character boundary*, that is the byte length of some
initial part of the text; the cutting functions here answer `none` at any other position.

## Main definitions

* `byteLength` — the number of bytes of a text.
* `dropBytes?`, `takeBytes?` — what follows, and what precedes, a byte position.
* `slice?` — the part of a text between two byte positions.
* `IsBoundary` — a position is a character boundary.

## Main results

* `byteLength_append` — byte lengths add up.
* `dropBytes?_append`, `takeBytes?_append` — cutting at a seam gives back the two sides.
* `exists_append_of_dropBytes?` — a position that can be cut at is a boundary.
* `slice?_eq_some_iff` — a slice is what stands between two seams.
* `exists_slice?_iff` — slices between boundaries are all that there are.
-/

namespace Sapling.Text

/-- The number of bytes that the characters take in UTF-8. -/
def byteLength : List Char → Nat
  | [] => 0
  | c :: cs => c.utf8Size + byteLength cs

/-- The text after its first `n` bytes, if byte `n` starts a character or ends the text. -/
def dropBytes? : Nat → List Char → Option (List Char)
  | 0, cs => some cs
  | _ + 1, [] => none
  | n + 1, c :: cs => if c.utf8Size ≤ n + 1 then dropBytes? (n + 1 - c.utf8Size) cs else none

/-- The first `n` bytes of the text, if byte `n` starts a character or ends the text. -/
def takeBytes? : Nat → List Char → Option (List Char)
  | 0, _ => some []
  | _ + 1, [] => none
  | n + 1, c :: cs =>
      if c.utf8Size ≤ n + 1 then (takeBytes? (n + 1 - c.utf8Size) cs).map (c :: ·) else none

/-- The text from byte `start` up to byte `stop`, if both are character boundaries in this order. -/
def slice? (text : List Char) (start stop : Nat) : Option (List Char) :=
  if start ≤ stop then (dropBytes? start text).bind (takeBytes? (stop - start)) else none

/-! ### Byte lengths -/

@[simp] theorem byteLength_nil : byteLength [] = 0 := rfl

@[simp] theorem byteLength_cons (c : Char) (cs : List Char) :
    byteLength (c :: cs) = c.utf8Size + byteLength cs := rfl

@[simp] theorem byteLength_append (a b : List Char) :
    byteLength (a ++ b) = byteLength a + byteLength b := by
  induction a with
  | nil => simp
  | cons c cs ih => simp [ih, Nat.add_assoc]

theorem byteLength_eq_zero {a : List Char} : byteLength a = 0 ↔ a = [] := by
  cases a with
  | nil => simp
  | cons c cs => simp [Nat.ne_of_gt c.utf8Size_pos]

/-! ### Cutting -/

@[simp] theorem dropBytes?_zero (text : List Char) : dropBytes? 0 text = some text := by
  cases text <;> rfl

@[simp] theorem takeBytes?_zero (text : List Char) : takeBytes? 0 text = some [] := by
  cases text <;> rfl

theorem dropBytes?_add_utf8Size (c : Char) (n : Nat) (cs : List Char) :
    dropBytes? (c.utf8Size + n) (c :: cs) = dropBytes? n cs := by
  obtain ⟨k, hk⟩ : ∃ k, c.utf8Size = k + 1 := ⟨c.utf8Size - 1, by have := c.utf8Size_pos; omega⟩
  rw [hk, Nat.add_right_comm, dropBytes?, if_pos (by omega), hk]
  congr 1
  omega

theorem takeBytes?_add_utf8Size (c : Char) (n : Nat) (cs : List Char) :
    takeBytes? (c.utf8Size + n) (c :: cs) = (takeBytes? n cs).map (c :: ·) := by
  obtain ⟨k, hk⟩ : ∃ k, c.utf8Size = k + 1 := ⟨c.utf8Size - 1, by have := c.utf8Size_pos; omega⟩
  rw [hk, Nat.add_right_comm, takeBytes?, if_pos (by omega), hk]
  congr 2
  omega

/-- Dropping the bytes of an initial part leaves the rest. -/
@[simp] theorem dropBytes?_append (a b : List Char) :
    dropBytes? (byteLength a) (a ++ b) = some b := by
  induction a with
  | nil => simp
  | cons c cs ih => rw [byteLength_cons, List.cons_append, dropBytes?_add_utf8Size, ih]

/-- Taking the bytes of an initial part gives that part. -/
@[simp] theorem takeBytes?_append (a b : List Char) :
    takeBytes? (byteLength a) (a ++ b) = some a := by
  induction a with
  | nil => simp
  | cons c cs ih => rw [byteLength_cons, List.cons_append, takeBytes?_add_utf8Size, ih]; rfl

/-- A position that can be dropped at is the byte length of an initial part. -/
theorem exists_append_of_dropBytes? {n : Nat} {text rest : List Char}
    (h : dropBytes? n text = some rest) : ∃ a, text = a ++ rest ∧ byteLength a = n := by
  fun_induction dropBytes? n text with
  | case1 => exact ⟨[], by simpa using h⟩
  | case2 => simp at h
  | case3 n c cs hc ih =>
    obtain ⟨a, rfl, ha⟩ := ih h
    exact ⟨c :: a, rfl, by simp only [byteLength_cons]; omega⟩
  | case4 => simp at h

/-- A position that can be taken up to is the byte length of the part taken. -/
theorem exists_append_of_takeBytes? {n : Nat} {text taken : List Char}
    (h : takeBytes? n text = some taken) : ∃ b, text = taken ++ b ∧ byteLength taken = n := by
  fun_induction takeBytes? n text generalizing taken with
  | case1 cs => exact ⟨cs, by simp_all⟩
  | case2 => simp at h
  | case3 n c cs hc ih =>
    obtain ⟨t, ht, rfl⟩ := Option.map_eq_some_iff.1 h
    obtain ⟨b, rfl, hb⟩ := ih ht
    exact ⟨b, rfl, by simp only [byteLength_cons]; omega⟩
  | case4 => simp at h

/-- A slice between two seams is what stands between them. -/
@[simp] theorem slice?_append (a b c : List Char) :
    slice? (a ++ (b ++ c)) (byteLength a) (byteLength a + byteLength b) = some b := by
  simp [slice?]

/-- Two ways to cut a text at the same byte are the same. -/
theorem append_inj_of_byteLength {a b a' b' : List Char} (h : a ++ b = a' ++ b')
    (hlen : byteLength a = byteLength a') : a = a' ∧ b = b' := by
  have htake := takeBytes?_append a b
  have hdrop := dropBytes?_append a b
  rw [h, hlen, takeBytes?_append] at htake
  rw [h, hlen, dropBytes?_append] at hdrop
  exact ⟨(Option.some.inj htake).symm, (Option.some.inj hdrop).symm⟩

/-- Of two ways to cut a text, the earlier cut divides the first part of the other one. -/
theorem exists_append_of_byteLength_le {a b a' b' : List Char} (h : a ++ b = a' ++ b')
    (hle : byteLength a ≤ byteLength a') : ∃ part, a' = a ++ part ∧ b = part ++ b' := by
  rcases List.append_eq_append_iff.1 h with ⟨part, ha, hb⟩ | ⟨part, ha, hb⟩
  · exact ⟨part, ha, hb⟩
  · -- the cuts are the same, since the other one would be the earlier one
    have hpart : part = [] := by
      rw [ha, byteLength_append] at hle
      exact byteLength_eq_zero.1 (by omega)
    subst hpart
    exact ⟨[], by simpa using ha.symm, by simpa using hb.symm⟩

/-- A slice is what stands between two seams. -/
theorem slice?_eq_some_iff {text part : List Char} {start stop : Nat} :
    slice? text start stop = some part ↔ ∃ before after, text = before ++ (part ++ after) ∧
      byteLength before = start ∧ byteLength before + byteLength part = stop := by
  constructor
  · intro h
    unfold slice? at h
    split at h
    case isFalse => cases h
    case isTrue hle =>
    obtain ⟨rest, hrest, htake⟩ := Option.bind_eq_some_iff.1 h
    obtain ⟨before, rfl, hbefore⟩ := exists_append_of_dropBytes? hrest
    obtain ⟨after, rfl, hpart⟩ := exists_append_of_takeBytes? htake
    exact ⟨before, after, rfl, hbefore, by omega⟩
  · rintro ⟨before, after, rfl, rfl, rfl⟩
    exact slice?_append before part after

/-- A position between two characters of a text, or at one of its ends. -/
def IsBoundary (text : List Char) (byte : Nat) : Prop :=
  ∃ before after, text = before ++ after ∧ byteLength before = byte

theorem isBoundary_iff {text : List Char} {byte : Nat} :
    IsBoundary text byte ↔ (dropBytes? byte text).isSome := by
  constructor
  · rintro ⟨before, after, rfl, rfl⟩
    rw [dropBytes?_append, Option.isSome_some]
  · intro h
    obtain ⟨rest, hrest⟩ := Option.isSome_iff_exists.1 h
    obtain ⟨before, htext, hbefore⟩ := exists_append_of_dropBytes? hrest
    exact ⟨before, rest, htext, hbefore⟩

instance (text : List Char) (byte : Nat) : Decidable (IsBoundary text byte) :=
  decidable_of_iff _ isBoundary_iff.symm

/-- **A text can be sliced just between two boundaries**, the first of which is not the later one.
-/
theorem exists_slice?_iff {text : List Char} {start stop : Nat} :
    (∃ part, slice? text start stop = some part) ↔
      start ≤ stop ∧ IsBoundary text start ∧ IsBoundary text stop := by
  constructor
  · rintro ⟨part, h⟩
    obtain ⟨before, after, rfl, rfl, rfl⟩ := slice?_eq_some_iff.1 h
    refine ⟨Nat.le_add_right _ _, ⟨before, _, rfl, rfl⟩, before ++ part, after, ?_, ?_⟩
    · rw [List.append_assoc]
    · rw [byteLength_append]
  · rintro ⟨hle, ⟨before, rest, rfl, rfl⟩, before', after, htext, rfl⟩
    obtain ⟨part, rfl, rfl⟩ := exists_append_of_byteLength_le htext hle
    exact ⟨part, by rw [byteLength_append]; exact slice?_append before part after⟩

/-- A part of a text is divided by two boundaries in it. -/
theorem exists_slices {front part tail : List Char} {start stop : Nat}
    (hstart : IsBoundary (front ++ (part ++ tail)) start)
    (hstop : IsBoundary (front ++ (part ++ tail)) stop) (hfront : byteLength front ≤ start)
    (hle : start ≤ stop) (hpart : stop ≤ byteLength front + byteLength part) :
    ∃ before between after, part = before ++ (between ++ after) ∧
      byteLength front + byteLength before = start ∧
      byteLength front + byteLength (before ++ between) = stop ∧
      slice? (front ++ (part ++ tail)) (byteLength front) start = some before ∧
      slice? (front ++ (part ++ tail)) start stop = some between := by
  obtain ⟨left, right, htext, rfl⟩ := hstart
  obtain ⟨left', right', htext', rfl⟩ := hstop
  obtain ⟨before, rfl, hright⟩ := exists_append_of_byteLength_le htext hfront
  obtain ⟨between, rfl, rfl⟩ := exists_append_of_byteLength_le (htext.symm.trans htext') hle
  -- what is left of the part stands after the second boundary
  rw [← byteLength_append] at hpart
  obtain ⟨after, hafter, -⟩ :=
    exists_append_of_byteLength_le (htext'.symm.trans (List.append_assoc ..).symm) hpart
  rw [List.append_assoc, List.append_assoc] at hafter
  refine ⟨before, between, after, List.append_cancel_left hafter, ?_, ?_, ?_, ?_⟩
  · rw [byteLength_append]
  · simp only [byteLength_append, Nat.add_assoc]
  · rw [htext, List.append_assoc, byteLength_append]
    exact slice?_append front before _
  · rw [htext, byteLength_append _ between]
    exact slice?_append _ between right'

theorem slice?_eq_none {text : List Char} {start stop : Nat}
    (h : ¬ (IsBoundary text start ∧ IsBoundary text stop)) : slice? text start stop = none := by
  cases hslice : slice? text start stop with
  | none => rfl
  | some part => exact absurd (exists_slice?_iff.1 ⟨part, hslice⟩).2 h

end Sapling.Text
