import Dimpl.Dtls13.Engine.Completeness

/-!
# The three scans of the receive queue

`has_complete_handshake`, `handshake_ack_help_needed` and `has_gap_in_incoming_handshake` go through
the same fragments, each with a loop of its own. Here the loops are as the source has them, and all
three are what one scan of the fragments says.
-/

namespace Dimpl.Dtls13

/-- The loop of `has_complete_handshake_with_seq`. -/
def completeLoop (wantedSeq wantedLength : Nat) : List Fragment → (lastFragmentEnd : Nat) → Bool
  | [], _ => false
  | h :: rest, lastFragmentEnd =>
    if wantedSeq ≠ h.header.messageSeq then completeLoop wantedSeq wantedLength rest lastFragmentEnd
    else if h.header.fragmentOffset > lastFragmentEnd then false
    else
      let stop := h.header.fragmentOffset + h.header.fragmentLength
      let lastFragmentEnd := if stop > lastFragmentEnd then stop else lastFragmentEnd
      if lastFragmentEnd = wantedLength then true
      else completeLoop wantedSeq wantedLength rest lastFragmentEnd

/-- The loop of `handshake_ack_help_needed`. -/
def helpLoop (wantedSeq wantedLength : Nat) : List Fragment → (lastFragmentEnd : Nat) → Bool
  | [], _ => true
  | h :: rest, lastFragmentEnd =>
    if wantedSeq ≠ h.header.messageSeq then helpLoop wantedSeq wantedLength rest lastFragmentEnd
    else if h.header.fragmentOffset > lastFragmentEnd then true
    else
      let stop := h.header.fragmentOffset + h.header.fragmentLength
      let lastFragmentEnd := if stop > lastFragmentEnd then stop else lastFragmentEnd
      if lastFragmentEnd = wantedLength then false
      else helpLoop wantedSeq wantedLength rest lastFragmentEnd

/-- The loop of `has_gap_in_incoming_handshake`. -/
def gapLoop (wantedSeq wantedLength : Nat) : List Fragment → (lastFragmentEnd : Nat) → Bool
  | [], _ => false
  | h :: rest, lastFragmentEnd =>
    if wantedSeq ≠ h.header.messageSeq then gapLoop wantedSeq wantedLength rest lastFragmentEnd
    else if h.header.fragmentOffset > lastFragmentEnd then true
    else
      let stop := h.header.fragmentOffset + h.header.fragmentLength
      let lastFragmentEnd := if stop > lastFragmentEnd then stop else lastFragmentEnd
      if lastFragmentEnd = wantedLength then false
      else gapLoop wantedSeq wantedLength rest lastFragmentEnd

namespace Engine

/-- `has_complete_handshake_with_seq`, with its loop. -/
def completeWithSeq (e : Engine) (wanted : MessageType) (expectedSeq : Nat) : Bool :=
  match e.scanFragments with
  | [] => false
  | first :: rest =>
    if first.header.messageSeq ≠ expectedSeq then false
    else if first.header.msgType ≠ wanted then false
    else completeLoop first.header.messageSeq first.header.length (first :: rest) 0

/-- `handshake_ack_help_needed`, with its loop. -/
def helpNeeded (e : Engine) : Bool :=
  match e.scanFragments with
  | [] => false
  | first :: rest =>
    if first.header.messageSeq ≠ e.peerHandshakeSeqNo then true
    else helpLoop first.header.messageSeq first.header.length (first :: rest) 0

/-- `has_gap_in_incoming_handshake`, with its loop. -/
def gapFound (e : Engine) : Bool :=
  match e.scanFragments with
  | [] => false
  | first :: rest =>
    if first.header.messageSeq ≠ e.peerHandshakeSeqNo then true
    else gapLoop first.header.messageSeq first.header.length (first :: rest) 0

end Engine

section Loops

variable {wantedSeq wantedLength lastFragmentEnd : Nat} {fragments : List Fragment} {e : Engine}

theorem furthest_eq {h : Fragment} :
    (if h.header.fragmentOffset + h.header.fragmentLength > lastFragmentEnd then
      h.header.fragmentOffset + h.header.fragmentLength else lastFragmentEnd) =
      max h.stop lastFragmentEnd := by
  unfold Fragment.stop
  split
  · rename_i further
    exact (Nat.max_eq_left (Nat.le_of_lt further)).symm
  · rename_i within
    exact (Nat.max_eq_right (Nat.le_of_not_lt within)).symm

/-- The loops differ only in what they return at each exit of the scan. -/
theorem loops_scan :
    completeLoop wantedSeq wantedLength fragments lastFragmentEnd =
        decide (scan wantedSeq wantedLength fragments lastFragmentEnd = .complete) ∧
      helpLoop wantedSeq wantedLength fragments lastFragmentEnd =
        decide (scan wantedSeq wantedLength fragments lastFragmentEnd ≠ .complete) ∧
      gapLoop wantedSeq wantedLength fragments lastFragmentEnd =
        decide (scan wantedSeq wantedLength fragments lastFragmentEnd = .gap) := by
  induction fragments generalizing lastFragmentEnd with
  | nil => exact ⟨rfl, rfl, rfl⟩
  | cons h rest inductionHypothesis =>
      simp only [completeLoop, helpLoop, gapLoop, scan, furthest_eq]
      split
      · exact inductionHypothesis
      · split
        · exact ⟨rfl, rfl, rfl⟩
        · split
          · exact ⟨rfl, rfl, rfl⟩
          · exact inductionHypothesis

theorem completeWithSeq_eq {wanted : MessageType} :
    e.completeWithSeq wanted e.peerHandshakeSeqNo = e.hasCompleteHandshake wanted := by
  unfold Engine.completeWithSeq Engine.hasCompleteHandshake Engine.scanFirst
  cases e.scanFragments with
  | nil => rfl
  | cons first rest =>
      dsimp only [List.head?_cons, Option.any_some]
      rw [loops_scan.1]
      by_cases expected : first.header.messageSeq = e.peerHandshakeSeqNo
      · by_cases type : first.header.msgType = wanted
        · simp only [expected, type, ne_eq, not_true, if_false, decide_true, Bool.true_and]
        · simp only [expected, type, ne_eq, not_true, not_false_eq_true, if_false, if_true, decide_true,
            decide_false, Bool.and_false, Bool.false_and]
      · simp only [expected, ne_eq, not_false_eq_true, if_true, decide_false, Bool.false_and]

theorem helpNeeded_eq : e.helpNeeded = e.handshakeAckHelpNeeded := by
  unfold Engine.helpNeeded Engine.handshakeAckHelpNeeded Engine.scanFirst
  cases e.scanFragments with
  | nil => rfl
  | cons first rest =>
      dsimp only [List.head?_cons, Option.any_some]
      rw [loops_scan.2.1]
      by_cases expected : first.header.messageSeq = e.peerHandshakeSeqNo
      · simp only [expected, ne_eq, not_true, if_false, decide_false, Bool.false_or]
      · simp only [expected, ne_eq, not_false_eq_true, if_true, decide_true, Bool.true_or]

theorem gapFound_eq : e.gapFound = e.hasGapInIncomingHandshake := by
  unfold Engine.gapFound Engine.hasGapInIncomingHandshake Engine.scanFirst
  cases e.scanFragments with
  | nil => rfl
  | cons first rest =>
      dsimp only [List.head?_cons, Option.any_some]
      rw [loops_scan.2.2]
      by_cases expected : first.header.messageSeq = e.peerHandshakeSeqNo
      · simp only [expected, ne_eq, not_true, if_false, decide_false, Bool.false_or]
      · simp only [expected, ne_eq, not_false_eq_true, if_true, decide_true, Bool.true_or]

end Loops

section Coverage

variable {fragments : List Fragment} {reached total i : Nat}

/-- A byte of the message is in some fragment. -/
def Holds (fragments : List Fragment) (i : Nat) : Prop :=
  ∃ h ∈ fragments, h.header.fragmentOffset ≤ i ∧ i < h.stop

/-- The fragments hold the bytes up to `reached` and no others, and none starts behind them. -/
structure CoversPrefix (fragments : List Fragment) (reached : Nat) : Prop where
  holds : ∀ i, Holds fragments i ↔ i < reached
  starts : ∀ h ∈ fragments, h.header.fragmentOffset ≤ reached

/-- A byte in front of some fragment is in none. -/
def HasHole (fragments : List Fragment) : Prop :=
  ∃ h ∈ fragments, ∃ i < h.header.fragmentOffset, ¬Holds fragments i

/-- Without a gap, fragments hold what is between where they start and where they reach. -/
theorem holds_iff (noGap : NoGap reached fragments) :
    i < reached ∨ Holds fragments i ↔ i < reach reached fragments := by
  induction fragments generalizing reached with
  | nil =>
      refine or_iff_left ?_
      rintro ⟨_, member, -⟩
      exact absurd member List.not_mem_nil
  | cons h rest inductionHypothesis =>
      rw [reach, ← inductionHypothesis noGap.2]
      have starts := noGap.1
      unfold Holds
      simp only [List.mem_cons, exists_eq_or_imp]
      constructor
      · rintro (before | ⟨-, inside⟩ | later)
        · exact .inl (Nat.lt_of_lt_of_le before (Nat.le_max_right _ _))
        · exact .inl (Nat.lt_of_lt_of_le inside (Nat.le_max_left _ _))
        · exact .inr later
      · rintro (before | later)
        · by_cases earlier : i < reached
          · exact .inl earlier
          · refine .inr (.inl ⟨?_, ?_⟩)
            · exact Nat.le_trans starts (Nat.le_of_not_lt earlier)
            · exact (lt_max_iff.mp before).resolve_right earlier
        · exact .inr (.inr later)

theorem reached_le_reach : reached ≤ reach reached fragments := by
  induction fragments generalizing reached with
  | nil => exact Nat.le_refl reached
  | cons h rest inductionHypothesis =>
      exact Nat.le_trans (Nat.le_max_right h.stop reached) inductionHypothesis

theorem offset_le_reach (noGap : NoGap reached fragments) :
    ∀ h ∈ fragments, h.header.fragmentOffset ≤ reach reached fragments := by
  induction fragments generalizing reached with
  | nil => exact fun _ member => absurd member List.not_mem_nil
  | cons h rest inductionHypothesis =>
      intro h' member
      rcases List.mem_cons.mp member with rfl | later
      · exact Nat.le_trans noGap.1
          (Nat.le_trans (Nat.le_max_right h'.stop reached) reached_le_reach)
      · exact inductionHypothesis noGap.2 h' later

/-- Fragments without a gap cover what is in front of where they reach. -/
theorem coversPrefix_of_noGap (noGap : NoGap 0 fragments) :
    CoversPrefix fragments (reach 0 fragments) where
  holds i := by
    rw [← holds_iff noGap]
    exact (or_iff_right (Nat.not_lt_zero i)).symm
  starts := offset_le_reach noGap

/-- Sorted fragments that hold all bytes up to some place have no gap up to there. -/
theorem noGap_of_sorted (sorted : fragments.Pairwise fun h h' =>
      h.header.fragmentOffset ≤ h'.header.fragmentOffset)
    (covered : ∀ i, reached ≤ i → i < total → Holds fragments i)
    (starts : ∀ h ∈ fragments, h.header.fragmentOffset ≤ total) : NoGap reached fragments := by
  induction fragments generalizing reached with
  | nil => trivial
  | cons h rest inductionHypothesis =>
      obtain ⟨first, sorted⟩ := List.pairwise_cons.mp sorted
      refine ⟨?_, inductionHypothesis sorted ?_ fun h' member => ?_⟩
      · by_contra behind
        -- The byte at `reached` is in a fragment that starts before the first one.
        have short : reached < total :=
          Nat.lt_of_lt_of_le (Nat.lt_of_not_le behind) (starts h List.mem_cons_self)
        obtain ⟨h', member, from', -⟩ := covered reached (Nat.le_refl reached) short
        rcases List.mem_cons.mp member with rfl | later
        · exact behind from'
        · exact behind (Nat.le_trans (first h' later) from')
      · intro i behind short
        obtain ⟨atStop, atReached⟩ := Nat.max_le.mp behind
        obtain ⟨h', member, from', until'⟩ := covered i atReached short
        rcases List.mem_cons.mp member with rfl | later
        · exact absurd until' (Nat.not_lt.mpr atStop)
        · exact ⟨h', later, from', until'⟩
      · exact starts h' (List.mem_cons_of_mem h member)

theorem noGap_of_coversPrefix (sorted : fragments.Pairwise fun h h' =>
      h.header.fragmentOffset ≤ h'.header.fragmentOffset)
    (covers : CoversPrefix fragments reached) : NoGap 0 fragments :=
  noGap_of_sorted sorted (fun i _ short => (covers.holds i).mpr short) covers.starts

theorem reach_append {more : List Fragment} :
    reach reached (fragments ++ more) = reach (reach reached fragments) more := by
  induction fragments generalizing reached with
  | nil => rfl
  | cons h rest inductionHypothesis => exact inductionHypothesis

theorem reach_le (within : ∀ h ∈ fragments, h.stop ≤ total) (start : reached ≤ total) :
    reach reached fragments ≤ total := by
  induction fragments generalizing reached with
  | nil => exact start
  | cons h rest inductionHypothesis =>
      obtain ⟨first, within⟩ := List.forall_mem_cons.mp within
      exact inductionHypothesis within (Nat.max_le.mpr ⟨first, start⟩)

end Coverage

section Waiting

variable {messageSeq total reached : Nat} {fragments : List Fragment} {e : Engine}

/-- The fragments follow each other without a gap, and nowhere do they end where the message does. -/
def Waiting (total reached : Nat) (fragments : List Fragment) : Prop :=
  NoGap reached fragments ∧
    ∀ front, front ≠ [] → front <+: fragments → reach reached front ≠ total

/-- What a scan that finds neither a gap nor the end of the message has seen. -/
theorem scan_incomplete_iff :
    scan messageSeq total fragments reached = .incomplete ↔
      Waiting total reached (ofMessage messageSeq fragments) := by
  induction fragments generalizing reached with
  | nil =>
      refine iff_of_true rfl ⟨trivial, fun front some isPrefix => ?_⟩
      exact absurd (List.prefix_nil.mp isPrefix) some
  | cons h rest inductionHypothesis =>
      unfold scan
      by_cases other : messageSeq = h.header.messageSeq
      · have own : ofMessage messageSeq (h :: rest) = h :: ofMessage messageSeq rest := by
          simp [ofMessage, other]
        rw [if_neg (not_not.mpr other), own]
        by_cases gap : h.header.fragmentOffset > reached
        · rw [if_pos gap]
          refine iff_of_false (by decide) fun waiting => ?_
          exact absurd waiting.1.1 (Nat.not_le.mpr gap)
        · rw [if_neg gap]
          have noGap := Nat.le_of_not_lt gap
          by_cases all : max h.stop reached = total
          · rw [if_pos all]
            refine iff_of_false (by decide) fun waiting => ?_
            exact waiting.2 [h] (List.cons_ne_nil h []) ⟨_, rfl⟩ all
          · rw [if_neg all, inductionHypothesis]
            constructor
            · rintro ⟨later, never⟩
              refine ⟨⟨noGap, later⟩, fun front some isPrefix => ?_⟩
              cases front with
              | nil => exact absurd rfl some
              | cons first front =>
                  obtain ⟨rfl, shorter⟩ := List.cons_prefix_cons.mp isPrefix
                  by_cases more : front = []
                  · rw [more]
                    exact all
                  · exact never front more shorter
            · rintro ⟨⟨-, later⟩, never⟩
              refine ⟨later, fun front some isPrefix => ?_⟩
              exact never (h :: front) (List.cons_ne_nil h front)
                (List.cons_prefix_cons.mpr ⟨rfl, isPrefix⟩)
      · have skipped : ofMessage messageSeq (h :: rest) = ofMessage messageSeq rest := by
          simp [ofMessage, Ne.symm other]
        rw [if_pos other, inductionHypothesis, skipped]

/-- Fragments in the order of their places, within the message, wait for the rest of it exactly
when they cover a part of it from its start. -/
theorem waiting_iff (some : fragments ≠ [])
    (sorted : fragments.Pairwise fun h h' => h.header.fragmentOffset ≤ h'.header.fragmentOffset)
    (within : ∀ h ∈ fragments, h.stop ≤ total) :
    Waiting total 0 fragments ↔ ∃ reached < total, CoversPrefix fragments reached := by
  constructor
  · rintro ⟨noGap, never⟩
    refine ⟨reach 0 fragments, ?_, coversPrefix_of_noGap noGap⟩
    exact Nat.lt_of_le_of_ne (reach_le within (Nat.zero_le total))
      (never fragments some List.prefix_rfl)
  · rintro ⟨reached, short, covers⟩
    have noGap := noGap_of_coversPrefix sorted covers
    refine ⟨noGap, fun front _ isPrefix => ?_⟩
    have same : reach 0 fragments = reached := by
      have covered := (coversPrefix_of_noGap noGap).holds
      by_contra differ
      rcases Nat.lt_or_gt_of_ne differ with less | more
      · exact Nat.lt_irrefl _ ((covered _).mp ((covers.holds _).mpr less))
      · exact Nat.lt_irrefl _ ((covers.holds _).mp ((covered _).mpr more))
    obtain ⟨later, rfl⟩ := isPrefix
    have front_le : reach 0 front ≤ reach 0 (front ++ later) := by
      rw [reach_append]
      exact reached_le_reach
    omega

end Waiting

end Dimpl.Dtls13
