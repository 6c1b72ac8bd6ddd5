import DiskKeys.Proofs.Bytes.Cursor

/-! # Scripts of reads

    Whatever is read, in whatever order and with whatever success, a cursor
    stands somewhere in its buffer and has the rest of it ahead (`Within`).
    A read either takes the bytes in front of it or finds too few of them
    and leaves the cursor where it was (`step_after`).  So what a script has
    taken, piece by piece, is the buffer up to the place that it has reached
    (`run_in_place`).

    A length is compared with the bytes that are left, so that no sum of it
    is formed; words of 64 bits, in which a sum may wrap around, come to the
    same (`take_after_toNat`). -/

namespace DiskKeys.Cursor

/-- A cursor stands in a buffer: the bytes up to its position are read and
    the others are ahead. -/
structure Within (data : Bytes) (c : Cursor) : Prop where
  position_le : c.position ≤ data.length
  position_add_remaining : c.position + c.remaining = data.length
  rest_eq : c.rest = data.drop c.position

theorem within_after {data : Bytes} {p : Nat} (hp : p ≤ data.length) :
    Within data (after data p) where
  position_le := hp
  position_add_remaining := by
    rw [remaining_after]
    exact Nat.add_sub_of_le hp
  rest_eq := rfl

/-! ## One read -/

/-- How many bytes a read takes. -/
def Step.width : Step → Nat
  | .u16 => 2
  | .u32 => 4
  | .take n => n
  | .skip n => n
  | .rest => 0

/-- What a read yields, of the bytes that it takes and of all that were
    ahead. -/
def Step.yield (taken ahead : Bytes) : Step → Piece
  | .u16 => .number (littleEndian taken)
  | .u32 => .number (littleEndian taken)
  | .take _ => .bytes taken
  | .skip _ => .skipped
  | .rest => .bytes ahead

/-- A read that depends on a condition settles on that condition. -/
theorem settle_ite {α : Type} (condition : Prop) [Decidable condition] (c next : Cursor) (a : α)
    (e : BoundsError) (f : α → Piece) :
    step.settle c (Except.map (fun (a, next) => (f a, next))
        (if condition then .ok (a, next) else .error e))
      = if condition then (.ok (f a), next) else (.error e, c) := by
  by_cases h : condition
  · rw [if_pos h, if_pos h]
    rfl
  · rw [if_neg h, if_neg h]
    rfl

/-- A read takes the bytes in front, if there are enough of them; otherwise
    it reports what was needed and what was there, and has not moved. -/
theorem step_after {data : Bytes} {p : Nat} (hp : p ≤ data.length) (s : Step) :
    (after data p).step s
      = if p + s.width ≤ data.length then
          (.ok (s.yield (part data p s.width) (data.drop p)), after data (p + s.width))
        else (.error (.underflow p s.width (data.length - p)), after data p) := by
  cases s with
  | u16 =>
      have hread : (UInt16.ofNat (numberAt data 2 p)).toNat = numberAt data 2 p :=
        UInt16.toNat_ofNat_of_lt' (numberAt_lt data 2 p)
      rw [step, readU16_after hp, settle_ite _ _ _ _ _ fun n : UInt16 => .number n.toNat, hread]
      rfl
  | u32 =>
      have hread : (UInt32.ofNat (numberAt data 4 p)).toNat = numberAt data 4 p :=
        UInt32.toNat_ofNat_of_lt' (numberAt_lt data 4 p)
      rw [step, readU32_after hp, settle_ite _ _ _ _ _ fun n : UInt32 => .number n.toNat, hread]
      rfl
  | take n =>
      rw [step, take_after hp, settle_ite _ _ _ _ _ Piece.bytes]
      rfl
  | skip n =>
      rw [step, skip, take_after hp, Step.width]
      by_cases h : p + n ≤ data.length
      · rw [if_pos h, if_pos h]
        rfl
      · rw [if_neg h, if_neg h]
        rfl
  | rest =>
      rw [Step.width, Nat.add_zero, if_pos hp]
      rfl

/-! ## Reads in a row -/

/-- Where reads in a row take a cursor. -/
def goOn (c : Cursor) (steps : List Step) : Cursor :=
  steps.foldl (fun c s => (c.step s).2) c

/-- The bytes that reads in a row take, piece by piece; a read that fails
    takes none. -/
def pieces (c : Cursor) : List Step → List Bytes
  | [] => []
  | s :: rest =>
      match c.step s with
      | (.ok _, next) => c.rest.take s.width :: pieces next rest
      | (.error _, next) => pieces next rest

/-- Each result of a script is that of its read where the reads before it
    have led. -/
theorem getElem?_run (c : Cursor) (steps : List Step) (k : Nat) :
    (c.run steps)[k]? = steps[k]?.map fun s => (c.goOn (steps.take k)).step s := by
  induction steps generalizing c k with
  | nil => rfl
  | cons s rest ih =>
      cases k with
      | zero => rfl
      | succ k =>
          rw [run, List.getElem?_cons_succ, List.getElem?_cons_succ, List.take_succ_cons, ih]
          rfl

/-- One read more. -/
theorem goOn_take_succ (c : Cursor) {steps : List Step} {k : Nat} {s : Step}
    (h : steps[k]? = some s) :
    c.goOn (steps.take (k + 1)) = ((c.goOn (steps.take k)).step s).2 := by
  rw [List.take_add_one, h, goOn, List.foldl_append]
  rfl

/-- Reads in a row lead to a place in the buffer, and what they have taken
    reaches from the place where they began to there. -/
theorem goOn_after {data : Bytes} {p : Nat} (hp : p ≤ data.length) (steps : List Step) :
    ∃ q, q ≤ data.length ∧ (after data p).goOn steps = after data q ∧
      data.take p ++ ((after data p).pieces steps).flatten = data.take q := by
  induction steps generalizing p with
  | nil => exact ⟨p, hp, rfl, List.append_nil _⟩
  | cons s rest ih =>
      have hstep := step_after hp s
      by_cases h : p + s.width ≤ data.length
      · rw [if_pos h] at hstep
        obtain ⟨q, hq, hgo, htaken⟩ := ih h
        refine ⟨q, hq, ?_, ?_⟩
        · show ((after data p).step s).2.goOn rest = _
          rw [hstep]
          exact hgo
        · rw [pieces, hstep, List.flatten_cons, ← List.append_assoc, ← htaken]
          rw [rest_after, List.take_add]
      · rw [if_neg h] at hstep
        obtain ⟨q, hq, hgo, htaken⟩ := ih hp
        refine ⟨q, hq, ?_, ?_⟩
        · show ((after data p).step s).2.goOn rest = _
          rw [hstep]
          exact hgo
        · rw [pieces, hstep]
          exact htaken

/-! ## Words -/

/-- Taking bytes as words of 64 bits decide on it: the read must end at a
    word, so that the sum has not wrapped around, and not behind the end of
    the buffer. -/
def takeInWords (data : Bytes) (position n : UInt64) : Except BoundsError (Bytes × Cursor) :=
  let stop := position + n
  if stop < position ∨ .ofNat data.length < stop then
    .error (.underflow position.toNat n.toNat (data.length - position.toNat))
  else .ok (part data position.toNat n.toNat, after data stop.toNat)

/-- For buffers with a length in words they decide as numbers do, also where
    the end of a read exceeds the largest word. -/
theorem take_after_toNat {data : Bytes} (hdata : data.length < UInt64.size) {position : UInt64}
    (hp : position.toNat ≤ data.length) (n : UInt64) :
    (after data position.toNat).take n.toNat = takeInWords data position n := by
  have hlength : (UInt64.ofNat data.length).toNat = data.length :=
    UInt64.toNat_ofNat_of_lt' hdata
  have hsum : (position + n).toNat = (position.toNat + n.toNat) % UInt64.size :=
    UInt64.toNat_add position n
  have hsize : UInt64.size = 2 ^ 64 := rfl
  have hn := n.toNat_lt
  rw [take_after hp, takeInWords]
  by_cases h : position.toNat + n.toNat ≤ data.length
  · have hstop : (position + n).toNat = position.toNat + n.toNat :=
      hsum.trans (Nat.mod_eq_of_lt (Nat.lt_of_le_of_lt h hdata))
    rw [if_pos h, if_neg, hstop]
    rintro (hwrapped | hbehind)
    · rw [UInt64.lt_iff_toNat_lt, hstop] at hwrapped
      omega
    · rw [UInt64.lt_iff_toNat_lt, hstop, hlength] at hbehind
      omega
  · rw [if_neg h, if_pos]
    rw [UInt64.lt_iff_toNat_lt, UInt64.lt_iff_toNat_lt, hlength, hsum]
    by_cases hword : position.toNat + n.toNat < UInt64.size
    · rw [Nat.mod_eq_of_lt hword]
      exact Or.inr (Nat.lt_of_not_le h)
    · -- a sum beyond the largest word is less than its terms
      rw [Nat.mod_eq_sub_mod (Nat.le_of_not_lt hword), Nat.mod_eq_of_lt (by omega)]
      exact Or.inl (by omega)

/-! ## Scripts -/

/-- **Reads in place.**  Before and after every read of a script the cursor
    stands in the buffer.  A read for which enough bytes are left yields
    exactly those in front, or the number that they make up, and moves on by
    as many; any other reports its place, what it needed and what was left,
    and does not move the cursor.  So what was taken by the reads that
    succeeded is, one piece after the other, the buffer up to the place
    that the script has reached.  All this stays the same if words of 64
    bits decide on reads, whatever lengths they hold. -/
theorem run_in_place (data : Bytes) (steps : List Step) :
    (∀ k s, steps[k]? = some s →
      let before := (ofBytes data).goOn (steps.take k)
      let next := (ofBytes data).goOn (steps.take (k + 1))
      Within data before ∧ Within data next ∧ ∃ result,
        ((ofBytes data).run steps)[k]? = some (result, next) ∧
        if s.width ≤ before.remaining then
          result = .ok (s.yield (part data before.position s.width) before.rest) ∧
          next.position = before.position + s.width
        else
          result = .error (.underflow before.position s.width before.remaining) ∧
          next = before) ∧
    ((ofBytes data).pieces steps).flatten = data.take ((ofBytes data).goOn steps).position ∧
    (data.length < UInt64.size → ∀ position n : UInt64, position.toNat ≤ data.length →
      (after data position.toNat).take n.toNat = takeInWords data position n) := by
  refine ⟨?_, ?_, fun hdata position n hp => take_after_toNat hdata hp n⟩
  · intro k s hs before next
    obtain ⟨p, hp, hbefore, -⟩ := goOn_after (Nat.zero_le data.length) (steps.take k)
    change before = after data p at hbefore
    have hnext : next = ((after data p).step s).2 := by
      rw [← hbefore]
      exact goOn_take_succ _ hs
    have hrun : ((ofBytes data).run steps)[k]? = some ((after data p).step s) := by
      rw [getElem?_run, hs, ← hbefore]
      rfl
    have hremaining : s.width ≤ data.length - p ↔ p + s.width ≤ data.length := by omega
    rw [hrun, hnext, hbefore, step_after hp s]
    refine ⟨within_after hp, ?_⟩
    rw [remaining_after, rest_after]
    by_cases h : p + s.width ≤ data.length
    · rw [if_pos h]
      refine ⟨within_after h, _, rfl, ?_⟩
      rw [if_pos (hremaining.mpr h)]
      exact ⟨rfl, rfl⟩
    · rw [if_neg h]
      refine ⟨within_after hp, _, rfl, ?_⟩
      rw [if_neg (mt hremaining.mp h)]
      exact ⟨rfl, rfl⟩
  · obtain ⟨q, -, hgo, htaken⟩ := goOn_after (Nat.zero_le data.length) steps
    rw [ofBytes_eq_after, hgo]
    exact htaken

/-- Between two reads that succeed, one that needs as many bytes as a word
    can say finds two of them missing and is as if it had not been. -/
theorem run_in_place_boundless :
    ((ofBytes [7, 1, 9]).run [.u16, .take 18446744073709551615, .u16, .take 1])[1]?
      = some (.error (.underflow 2 18446744073709551615 1), after [7, 1, 9] 2) ∧
    ((ofBytes [7, 1, 9]).pieces [.u16, .take 18446744073709551615, .u16, .take 1]).flatten
      = [7, 1, 9] ∧
    (after [7, 1, 9] 2).take 18446744073709551615
      = takeInWords [7, 1, 9] 2 18446744073709551615 := by
  obtain ⟨hreads, htaken, hwords⟩ :=
    run_in_place [7, 1, 9] [.u16, .take 18446744073709551615, .u16, .take 1]
  obtain ⟨-, -, result, hrun, hresult, hnext⟩ := hreads 1 (.take 18446744073709551615) rfl
  refine ⟨?_, htaken, hwords (by decide) 2 18446744073709551615 (by decide)⟩
  rw [hrun, hresult, hnext]
  rfl

end DiskKeys.Cursor
