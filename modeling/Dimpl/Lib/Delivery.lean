import Mathlib.Data.List.GetD
import Mathlib.Data.List.Sort
import Mathlib.Data.List.Range
import Dimpl.Lib.Cutting
import Dimpl.Lib.Program

/-!
# Packets on a lossy network

A sender numbers its items one after the other and puts them into packets. The network loses, repeats
and reorders packets. A receiver that opens each number once, queues what it opened in the order of
the packets and drains its queue now and then hands out every packet that came, at its first coming,
and what it drains together in the order it was sent.
-/

namespace Delivery

open Program

section Abstract

variable {α : Type}

/-- The packets of a round that did not come before, in the order they were sent. -/
def firstTime (count : Nat) (earlier round : List Nat) : List Nat :=
  (List.range count).filter fun i => round.contains i && !earlier.contains i

/-- What each round hands out: the items of the packets that come for the first time. -/
def delivered (packets : List (List α)) : (earlier : List Nat) → (rounds : List (List Nat)) → List (List α)
  | _, [] => []
  | earlier, round :: rest =>
    (firstTime packets.length earlier round).flatMap (fun i => packets.getD i []) ::
      delivered packets (earlier ++ round) rest

/-- What can be read of a packet: one that holds more than so many items is lost as a whole. -/
def legible (capacity : Nat) (packet : List α) : List α := if packet.length ≤ capacity then packet else []

/-- How many items stand in the packets before a packet. -/
def start (packets : List (List α)) (i : Nat) : Nat := (packets.take i).flatten.length

/-- The numbers of the items of a packet. -/
def numbers (packets : List (List α)) (base i : Nat) : List Nat :=
  List.range' (base + start packets i) (packets.getD i []).length

/-- No packet comes for the first time when an item that far above its first one came already. -/
def Timely (packets : List (List α)) (window : Nat) (arrivals : List Nat) : Prop :=
  ∀ before i after, arrivals = before ++ i :: after → i ∉ before →
    ∀ j ∈ before, start packets (j + 1) ≤ start packets i + window

/-- In no round do more packets come for the first time than there is room for. -/
def Roomy (packets : List (List α)) (room : Nat) (rounds : List (List Nat)) : Prop :=
  ∀ before round after, rounds = before ++ round :: after →
    (firstTime packets.length before.flatten round).length ≤ room

/-- A packet that cannot be read comes at most once. -/
def Unrepeated (packets : List (List α)) (capacity : Nat) (arrivals : List Nat) : Prop :=
  ∀ i, capacity < (packets.getD i []).length → arrivals.count i ≤ 1

variable {packets : List (List α)} {base i j n : Nat}

theorem mem_firstTime {count : Nat} {earlier round : List Nat} :
    i ∈ firstTime count earlier round ↔ i < count ∧ i ∈ round ∧ i ∉ earlier := by
  simp [firstTime]

theorem firstTime_sorted {count : Nat} {earlier round : List Nat} :
    (firstTime count earlier round).Pairwise (· < ·) :=
  List.pairwise_lt_range.filter _

theorem start_succ : start packets (i + 1) = start packets i + (packets.getD i []).length := by
  unfold start
  rw [List.take_add_one, List.flatten_append, List.length_append, List.getD_eq_getElem?_getD]
  cases packets[i]? with
  | none => rfl
  | some packet => simp

theorem start_mono (le : i ≤ j) : start packets i ≤ start packets j := by
  induction le with
  | refl => exact Nat.le_refl _
  | step _ inductionHypothesis =>
      rw [start_succ]
      omega

theorem start_le : start packets i ≤ packets.flatten.length := by
  unfold start
  rw [← List.take_append_drop i packets, List.flatten_append, List.length_append, List.take_append_drop]
  exact Nat.le_add_right ..

theorem start_add_length_le : start packets i + (packets.getD i []).length ≤ packets.flatten.length := by
  rw [← start_succ]
  exact start_le

theorem mem_numbers : n ∈ numbers packets base i ↔
    base + start packets i ≤ n ∧ n < base + start packets (i + 1) := by
  unfold numbers
  rw [List.mem_range'_1, start_succ]
  omega

/-- A packet that is not empty starts before the next one. -/
theorem start_lt (filled : ∀ packet ∈ packets, packet ≠ []) (inside : i < packets.length) (less : i < j) :
    start packets i < start packets j := by
  have some : packets.getD i [] ≠ [] := by
    rw [List.getD_eq_getElem _ _ inside]
    exact filled _ (List.getElem_mem inside)
  have positive := List.length_pos_of_ne_nil some
  have next := @start_succ _ packets i
  have above := @start_mono _ packets (i + 1) j less
  omega

/-- Packets in order hold no more than all packets from the first of them on. -/
theorem start_add_le {chosen : List Nat} (sorted : chosen.Pairwise (· < ·)) (above : ∀ j ∈ chosen, i ≤ j) :
    start packets i + (chosen.flatMap fun j => packets.getD j []).length ≤ packets.flatten.length := by
  induction chosen generalizing i with
  | nil => exact start_le
  | cons j rest inductionHypothesis =>
      obtain ⟨less, sorted⟩ := List.pairwise_cons.mp sorted
      have within := inductionHypothesis sorted less
      have before := @start_mono _ packets i j (above j List.mem_cons_self)
      rw [start_succ] at within
      rw [List.flatMap_cons, List.length_append]
      omega

/-- Different packets have different numbers. -/
theorem numbers_disjoint (isNumber : n ∈ numbers packets base i) (isNumber' : n ∈ numbers packets base j) :
    i = j := by
  rw [mem_numbers] at isNumber isNumber'
  rcases Nat.lt_trichotomy i j with less | same | greater
  · have above := @start_mono _ packets (i + 1) j less
    omega
  · exact same
  · have above := @start_mono _ packets (j + 1) i greater
    omega

/-- The numbers of a packet lie between the first one and the last one. -/
theorem numbers_bounds (isNumber : n ∈ numbers packets base i) :
    base ≤ n ∧ n < base + packets.flatten.length := by
  rw [mem_numbers] at isNumber
  have within := @start_le _ packets (i + 1)
  omega

end Abstract

section Lossless

variable {α : Type} {packets : List (List α)} {k m capacity : Nat}

/-- The packets come one by one, in order. -/
def inOrder (count : Nat) : List (List Nat) := (List.range count).map fun i => [i]

theorem firstTime_next {count : Nat} (inside : k < count) : firstTime count (List.range k) [k] = [k] := by
  have : Std.Antisymm fun i j : Nat => i < j := ⟨fun _ _ less greater => absurd less (Nat.lt_asymm greater)⟩
  have : Std.Irrefl fun i j : Nat => i < j := ⟨Nat.lt_irrefl⟩
  refine firstTime_sorted.eq_of_mem_iff (List.pairwise_singleton ..) fun i => ?_
  rw [mem_firstTime, List.mem_singleton, List.mem_range]
  omega

theorem delivered_from (inside : k + m = packets.length) :
    delivered packets (List.range k) ((List.range' k m).map fun i => [i]) = packets.drop k := by
  induction m generalizing k with
  | zero =>
      rw [List.drop_of_length_le (by omega)]
      rfl
  | succ m inductionHypothesis =>
      have small : k < packets.length := by omega
      have rest := @inductionHypothesis (k + 1) (by omega)
      rw [List.range_succ] at rest
      rw [List.range'_succ, List.map_cons, delivered, firstTime_next small, rest, List.drop_eq_getElem_cons small,
        List.flatMap_singleton, List.getD_eq_getElem _ _ small]

/-- Then each packet is handed out in its round. -/
theorem delivered_inOrder : delivered packets [] (inOrder packets.length) = packets := by
  have whole := @delivered_from _ packets 0 packets.length (Nat.zero_add _)
  rw [List.drop_zero, ← List.range_eq_range'] at whole
  exact whole

/-- Nothing is lost exactly if every packet can be read. -/
theorem legible_all_iff :
    (packets.map (legible capacity)).flatten = packets.flatten ↔
      ∀ packet ∈ packets, packet.length ≤ capacity := by
  induction packets with
  | nil => simp
  | cons packet rest inductionHypothesis =>
      have shorter : (rest.map (legible capacity)).flatten.length ≤ rest.flatten.length := by
        clear inductionHypothesis
        induction rest with
        | nil => exact Nat.le_refl _
        | cons packet rest inductionHypothesis =>
            have here : (legible capacity packet).length ≤ packet.length := by
              unfold legible
              split
              · exact Nat.le_refl _
              · exact Nat.zero_le _
            simp only [List.map_cons, List.flatten_cons, List.length_append]
            omega
      rw [List.map_cons, List.flatten_cons, List.flatten_cons, List.forall_mem_cons, ← inductionHypothesis]
      by_cases short : packet.length ≤ capacity
      · simp [legible, short]
      · simp only [legible, short, if_false, List.nil_append, false_and, iff_false]
        intro same
        have lengths := congrArg List.length same
        rw [List.length_append] at lengths
        omega

end Lossless

section Pairing

variable {ι : Type} {R : Nat → ι → Prop} {chosen : List Nat} {queue front back : List ι} {x : ι} {i : Nat}

theorem forall₂_mem (pairs : List.Forall₂ R chosen queue) : ∀ y ∈ queue, ∃ j ∈ chosen, R j y := by
  induction pairs with
  | nil => exact fun _ member => absurd member List.not_mem_nil
  | cons here _ inductionHypothesis =>
      intro y member
      rcases List.mem_cons.mp member with rfl | member
      · exact ⟨_, List.mem_cons_self, here⟩
      · obtain ⟨j, isChosen, holds⟩ := inductionHypothesis y member
        exact ⟨j, List.mem_cons_of_mem _ isChosen, holds⟩

/-- What is paired with indices in order is in order. -/
theorem forall₂_pairwise {less : ι → ι → Prop} (pairs : List.Forall₂ R chosen queue)
    (sorted : chosen.Pairwise (· < ·)) (mono : ∀ i x j y, R i x → R j y → i < j → less x y) :
    queue.Pairwise less := by
  induction pairs with
  | nil => exact .nil
  | cons here later inductionHypothesis =>
      obtain ⟨above, sorted⟩ := List.pairwise_cons.mp sorted
      refine List.pairwise_cons.mpr ⟨fun y member => ?_, inductionHypothesis sorted⟩
      obtain ⟨j, isChosen, holds⟩ := forall₂_mem later y member
      exact mono _ _ _ _ here holds (above j isChosen)

/-- What is put between the smaller and the larger is paired with the index put in order. -/
theorem forall₂_orderedInsert (pairs : List.Forall₂ R chosen (front ++ back)) (isItem : R i x)
    (below : ∀ y ∈ front, ∀ j, R j y → j < i) (above : ∀ y ∈ back, ∀ j, R j y → i < j) :
    List.Forall₂ R (chosen.orderedInsert (· ≤ ·) i) (front ++ x :: back) := by
  induction front generalizing chosen with
  | nil =>
      cases pairs with
      | nil => exact .cons isItem .nil
      | cons here later =>
          have less := above _ List.mem_cons_self _ here
          rw [List.orderedInsert_cons, if_pos less.le]
          exact .cons isItem (.cons here later)
  | cons y front inductionHypothesis =>
      cases pairs with
      | cons here later =>
          have less := below _ List.mem_cons_self _ here
          rw [List.orderedInsert_cons, if_neg (Nat.not_le.mpr less)]
          exact .cons here (inductionHypothesis later fun z member => below z (List.mem_cons_of_mem _ member))

theorem orderedInsert_sorted (sorted : chosen.Pairwise (· < ·)) (absent : i ∉ chosen) :
    (chosen.orderedInsert (· ≤ ·) i).Pairwise (· < ·) := by
  have ordered := (sorted.imp Nat.le_of_lt).orderedInsert i chosen
  have distinct : (chosen.orderedInsert (· ≤ ·) i).Nodup :=
    (List.perm_orderedInsert _ i chosen).nodup_iff.mpr
      (List.nodup_cons.mpr ⟨absent, sorted.imp Nat.ne_of_lt⟩)
  exact (ordered.and distinct).imp fun both => Nat.lt_of_le_of_ne both.1 both.2

end Pairing

section Sending

variable {ε σ α β : Type}

/-- Items that are sent one after the other. -/
def submit (send : α → EStateM ε σ Unit) : List α → EStateM ε σ Unit
  | [] => pure ()
  | item :: rest => do
    send item
    submit send rest

/-- Bytes that are the records of these items, numbered from a number on. -/
inductive Carries (record : Nat → α → List β → Prop) : Nat → List α → List β → Prop where
  | none {n : Nat} : Carries record n [] []
  | record {n : Nat} {item : α} {rest : List α} {wire bytes : List β} (isRecord : record n item wire)
      (later : Carries record (n + 1) rest bytes) : Carries record n (item :: rest) (wire ++ bytes)

/-- Datagrams that carry these packets, none of them empty. Only a single record makes a datagram
longer than the limit. -/
inductive Stream (record : Nat → α → List β → Prop) (mtu : Nat) :
    Nat → List (List α) → List (List β) → Prop where
  | none {n : Nat} : Stream record mtu n [] []
  | packet {n : Nat} {packet : List α} {bytes : List β} {packets : List (List α)} {datagrams : List (List β)}
      (filled : packet ≠ []) (short : packet.length = 1 ∨ bytes.length ≤ mtu)
      (carries : Carries record n packet bytes)
      (later : Stream record mtu (n + packet.length) packets datagrams) :
      Stream record mtu n (packet :: packets) (bytes :: datagrams)

variable {record : Nat → α → List β → Prop} {mtu n : Nat} {items : List α} {bytes wire : List β} {item : α}
  {packets : List (List α)} {datagrams : List (List β)}

theorem Carries.concat (carries : Carries record n items bytes)
    (isRecord : record (n + items.length) item wire) :
    Carries record n (items ++ [item]) (bytes ++ wire) := by
  induction carries with
  | none => simpa using Carries.record isRecord .none
  | @record n first rest before bytes isFirst later inductionHypothesis =>
      have place : n + (first :: rest).length = n + 1 + rest.length := by
        rw [List.length_cons]
        omega
      rw [List.append_assoc]
      exact .record isFirst (inductionHypothesis (place ▸ isRecord))

theorem Stream.length_eq (stream : Stream record mtu n packets datagrams) :
    datagrams.length = packets.length := by
  induction stream with
  | none => rfl
  | packet _ _ _ _ inductionHypothesis => rw [List.length_cons, List.length_cons, inductionHypothesis]

theorem Stream.filled (stream : Stream record mtu n packets datagrams) : ∀ packet ∈ packets, packet ≠ [] := by
  induction stream with
  | none => exact fun _ member => absurd member List.not_mem_nil
  | packet filled _ _ _ inductionHypothesis => exact List.forall_mem_cons.mpr ⟨filled, inductionHypothesis⟩

/-- The datagram of a packet. -/
theorem Stream.at_index (stream : Stream record mtu n packets datagrams) {i : Nat} (inside : i < packets.length) :
    Carries record (n + start packets i) (packets.getD i []) (datagrams.getD i []) ∧
      ((packets.getD i []).length = 1 ∨ (datagrams.getD i []).length ≤ mtu) := by
  induction stream generalizing i with
  | none => exact absurd inside (Nat.not_lt_zero _)
  | @packet n packet bytes packets datagrams filled short carries later inductionHypothesis =>
      cases i with
      | zero => exact ⟨carries, short⟩
      | succ i =>
          have place : n + start (packet :: packets) (i + 1) = n + packet.length + start packets i := by
            simp [start, Nat.add_assoc]
          rw [place]
          exact inductionHypothesis (Nat.lt_of_succ_lt_succ inside)

theorem Stream.concat (stream : Stream record mtu n packets datagrams)
    (isRecord : record (n + packets.flatten.length) item wire) :
    Stream record mtu n (packets ++ [[item]]) (datagrams ++ [wire]) := by
  induction stream with
  | none =>
      refine .packet (List.cons_ne_nil _ _) (.inl rfl) ?_ .none
      simpa using Carries.record isRecord .none
  | packet filled short carries later inductionHypothesis =>
      refine .packet filled short carries (inductionHypothesis ?_)
      simpa [Nat.add_assoc] using isRecord

theorem Stream.extend {last : List α} {end_ : List β}
    (stream : Stream record mtu n (packets ++ [last]) (datagrams ++ [end_]))
    (isRecord : record (n + (packets ++ [last]).flatten.length) item wire)
    (fits : end_.length + wire.length ≤ mtu) :
    Stream record mtu n (packets ++ [last ++ [item]]) (datagrams ++ [end_ ++ wire]) := by
  induction packets generalizing n datagrams with
  | nil =>
      have none : datagrams = [] := by
        have same := stream.length_eq
        simpa using same
      subst none
      cases stream with
      | packet filled short carries later =>
          refine .packet (by simp) (.inr ?_) (carries.concat (by simpa using isRecord)) .none
          rw [List.length_append]
          exact fits
  | cons packet packets inductionHypothesis =>
      cases datagrams with
      | nil =>
          have same := stream.length_eq
          simp at same
      | cons bytes datagrams =>
          cases stream with
          | packet filled short carries later =>
              refine .packet filled short carries (inductionHypothesis later ?_)
              simpa [Nat.add_assoc] using isRecord

/-- A record more, in the last datagram or in one of its own. -/
theorem Stream.enqueue {append : Bool} (stream : Stream record mtu n packets datagrams)
    (isRecord : record (n + packets.flatten.length) item wire)
    (appends : Packing.Appends mtu append datagrams wire) :
    ∃ packets', Stream record mtu n packets' (Packing.enqueue append datagrams wire) ∧
      packets'.flatten = packets.flatten ++ [item] := by
  cases append with
  | false => exact ⟨packets ++ [[item]], stream.concat isRecord, by simp⟩
  | true =>
      obtain ⟨end_, isLast, fits⟩ := appends rfl
      obtain ⟨front, rfl⟩ := List.getLast?_eq_some_iff.mp isLast
      have nonempty : packets ≠ [] := by
        rintro rfl
        have same := stream.length_eq
        simp at same
      obtain ⟨before, last, rfl⟩ := (List.eq_nil_or_concat packets).resolve_left nonempty
      rw [List.concat_eq_append] at *
      refine ⟨before ++ [last ++ [item]], ?_, by simp⟩
      simpa [Packing.enqueue] using stream.extend isRecord fits

end Sending

section Playing

variable {ε σ α : Type}

/-- A call whose error the caller does not mind. -/
def attempt (program : EStateM ε σ Unit) : EStateM ε σ Unit := fun s => .ok () (finalState program s)

/-- Packets come one after the other. -/
def arrive (receive : Nat → EStateM ε σ Unit) : List Nat → EStateM ε σ Unit
  | [] => pure ()
  | i :: rest => do
    attempt (receive i)
    arrive receive rest

/-- In each round some packets come and then all is drained. -/
def play (receive : Nat → EStateM ε σ Unit) (drain : EStateM ε σ (List α)) :
    (rounds : List (List Nat)) → EStateM ε σ (List (List α))
  | [] => pure []
  | round :: rest => do
    arrive receive round
    let items ← drain
    let later ← play receive drain rest
    return items :: later

/-- A receiver, seen through the numbers it opened and the packets in its queue. A packet of opened
numbers is dropped, one of numbers that the window admits is queued in its place, and one that is too
long is lost, with some of its numbers opened. -/
structure Inbox (packets : List (List α)) (base capacity window room : Nat)
    (receive : Nat → EStateM ε σ Unit) (drain : EStateM ε σ (List α))
    (holds : (opened waiting : List Nat) → σ → Prop) : Prop where
  fresh : ∀ {opened waiting s i}, holds opened waiting s → i < packets.length →
    (∀ n ∈ numbers packets base i, ∀ m ∈ opened, m ≠ n ∧ m < n + window) →
    (packets.getD i []).length ≤ capacity → i ∉ waiting → waiting.length < room →
    holds (opened ++ numbers packets base i) (waiting.orderedInsert (· ≤ ·) i) (finalState (receive i) s)
  long : ∀ {opened waiting s i}, holds opened waiting s → i < packets.length →
    (∀ n ∈ numbers packets base i, ∀ m ∈ opened, m ≠ n ∧ m < n + window) →
    capacity < (packets.getD i []).length → i ∉ waiting → waiting.length < room →
    ∃ part ⊆ numbers packets base i, holds (opened ++ part) waiting (finalState (receive i) s)
  stale : ∀ {opened waiting s i}, holds opened waiting s → i < packets.length →
    numbers packets base i ⊆ opened → holds opened waiting (finalState (receive i) s)
  drained : ∀ {opened waiting s}, holds opened waiting s →
    Post drain s (fun items s' => items = waiting.flatMap (fun i => packets.getD i []) ∧ holds opened [] s')
      fun _ _ => False

variable {packets : List (List α)} {base capacity window room : Nat} {receive : Nat → EStateM ε σ Unit}
  {drain : EStateM ε σ (List α)} {holds : (opened waiting : List Nat) → σ → Prop}

/-- The opened numbers are those of packets that came, and all of them if these could be read. -/
structure Accounts (packets : List (List α)) (base capacity : Nat) (arrived opened : List Nat) : Prop where
  genuine : ∀ m ∈ opened, ∃ j ∈ arrived, m ∈ numbers packets base j
  all : ∀ j ∈ arrived, (packets.getD j []).length ≤ capacity → numbers packets base j ⊆ opened

/-- The queue of a round: the packets that came in it for the first time and can be read. -/
structure Waits (packets : List (List α)) (capacity : Nat) (earlier round waiting : List Nat) : Prop where
  sorted : waiting.Pairwise (· < ·)
  members : ∀ i, i ∈ waiting ↔
    i ∈ firstTime packets.length earlier round ∧ (packets.getD i []).length ≤ capacity

/-- What waits is what can be read of those that came for the first time. -/
theorem Waits.flatMap {earlier round waiting : List Nat}
    (waits : Waits packets capacity earlier round waiting) :
    waiting.flatMap (fun i => packets.getD i []) =
      (firstTime packets.length earlier round).flatMap
        fun i => (packets.map (legible capacity)).getD i [] := by
  have : Std.Antisymm fun i j : Nat => i < j := ⟨fun _ _ less greater => absurd less (Nat.lt_asymm greater)⟩
  have : Std.Irrefl fun i j : Nat => i < j := ⟨Nat.lt_irrefl⟩
  have same : waiting = (firstTime packets.length earlier round).filter
      fun i => (packets.getD i []).length ≤ capacity := by
    refine waits.sorted.eq_of_mem_iff (firstTime_sorted.filter _) fun i => ?_
    rw [waits.members, List.mem_filter, decide_eq_true_eq]
  rw [same]
  generalize firstTime packets.length earlier round = chosen
  induction chosen with
  | nil => rfl
  | cons i rest inductionHypothesis =>
      have here : (packets.map (legible capacity)).getD i [] = legible capacity (packets.getD i []) := by
        simp only [List.getD_eq_getElem?_getD, List.getElem?_map]
        cases packets[i]? <;> simp [legible]
      rw [List.flatMap_cons, here, ← inductionHypothesis]
      by_cases short : (packets.getD i []).length ≤ capacity
      · simp only [List.filter_cons, decide_eq_true_eq, if_pos short, List.flatMap_cons, legible]
      · simp only [List.filter_cons, decide_eq_true_eq, if_neg short, legible, List.nil_append]

/-- Nothing came for the first time too late, and what cannot be read did not come twice. -/
structure Fair (packets : List (List α)) (capacity window : Nat) (arrivals : List Nat) : Prop where
  inside : ∀ i ∈ arrivals, i < packets.length
  timely : Timely packets window arrivals
  unrepeated : Unrepeated packets capacity arrivals

theorem Fair.front {before after : List Nat} (fair : Fair packets capacity window (before ++ after)) :
    Fair packets capacity window before where
  inside := fun i member => fair.inside i (List.mem_append_left _ member)
  timely := by
    intro front i back split
    exact fair.timely front i (back ++ after) (by rw [split, List.append_assoc, List.cons_append])
  unrepeated := by
    intro i long
    have once := fair.unrepeated i long
    rw [List.count_append] at once
    omega

section Steps

variable {earlier done opened waiting : List Nat} {i : Nat}

theorem Accounts.again (accounts : Accounts packets base capacity (earlier ++ done) opened)
    (again : i ∈ earlier ++ done) : Accounts packets base capacity (earlier ++ (done ++ [i])) opened where
  genuine := by
    intro m isOpened
    obtain ⟨j, came, isNumber⟩ := accounts.genuine m isOpened
    exact ⟨j, by simp only [List.mem_append] at came ⊢; tauto, isNumber⟩
  all := by
    intro j came
    apply accounts.all j
    rw [← List.append_assoc, List.mem_append, List.mem_singleton] at came
    rcases came with came | rfl
    · exact came
    · exact again

theorem Accounts.opens {part : List Nat} (accounts : Accounts packets base capacity (earlier ++ done) opened)
    (within : part ⊆ numbers packets base i)
    (whole : (packets.getD i []).length ≤ capacity → numbers packets base i ⊆ part) :
    Accounts packets base capacity (earlier ++ (done ++ [i])) (opened ++ part) where
  genuine := by
    intro m isOpened
    rcases List.mem_append.mp isOpened with isOpened | isNumber
    · obtain ⟨j, came, isNumber⟩ := accounts.genuine m isOpened
      exact ⟨j, by simp only [List.mem_append] at came ⊢; tauto, isNumber⟩
    · exact ⟨i, by simp, within isNumber⟩
  all := by
    intro j came readable m isNumber
    rw [← List.append_assoc, List.mem_append, List.mem_singleton] at came
    rcases came with came | rfl
    · exact List.mem_append_left _ (accounts.all j came readable isNumber)
    · exact List.mem_append_right _ (whole readable isNumber)

theorem Waits.again (waits : Waits packets capacity earlier done waiting) (again : i ∈ earlier ++ done) :
    Waits packets capacity earlier (done ++ [i]) waiting where
  sorted := waits.sorted
  members := by
    intro j
    rw [waits.members, mem_firstTime, mem_firstTime]
    simp only [List.mem_append, List.mem_singleton] at again ⊢
    constructor
    · tauto
    · rintro ⟨⟨small, came | rfl, first⟩, readable⟩
      · exact ⟨⟨small, came, first⟩, readable⟩
      · exact ⟨⟨small, again.resolve_left first, first⟩, readable⟩

theorem Waits.lost (waits : Waits packets capacity earlier done waiting)
    (long : capacity < (packets.getD i []).length) :
    Waits packets capacity earlier (done ++ [i]) waiting where
  sorted := waits.sorted
  members := by
    intro j
    rw [waits.members, mem_firstTime, mem_firstTime, List.mem_append, List.mem_singleton]
    constructor
    · rintro ⟨⟨small, came, first⟩, readable⟩
      exact ⟨⟨small, .inl came, first⟩, readable⟩
    · rintro ⟨⟨small, came | rfl, first⟩, readable⟩
      · exact ⟨⟨small, came, first⟩, readable⟩
      · exact absurd readable (Nat.not_le.mpr long)

theorem Waits.insert (waits : Waits packets capacity earlier done waiting) (inside : i < packets.length)
    (first : i ∉ earlier ++ done) (short : (packets.getD i []).length ≤ capacity) (absent : i ∉ waiting) :
    Waits packets capacity earlier (done ++ [i]) (waiting.orderedInsert (· ≤ ·) i) where
  sorted := orderedInsert_sorted waits.sorted absent
  members := by
    intro j
    rw [List.mem_append, not_or] at first
    rw [List.mem_orderedInsert, waits.members, mem_firstTime, mem_firstTime, List.mem_append,
      List.mem_singleton]
    constructor
    · rintro (rfl | ⟨⟨small, came, first⟩, readable⟩)
      · exact ⟨⟨inside, .inr rfl, first.1⟩, short⟩
      · exact ⟨⟨small, .inl came, first⟩, readable⟩
    · rintro ⟨⟨small, came | rfl, first⟩, readable⟩
      · exact .inr ⟨⟨small, came, first⟩, readable⟩
      · exact .inl rfl

theorem Waits.absent (waits : Waits packets capacity earlier done waiting) (first : i ∉ earlier ++ done) :
    i ∉ waiting := by
  intro member
  have came := (mem_firstTime.mp ((waits.members i).mp member).1).2.1
  exact first (List.mem_append_right _ came)

/-- There is room for one that comes for the first time. -/
theorem Waits.space (waits : Waits packets capacity earlier done waiting) (inside : i < packets.length)
    (first : i ∉ earlier ++ done)
    (roomy : (firstTime packets.length earlier (done ++ [i])).length ≤ room) : waiting.length < room := by
  have distinct : (i :: waiting).Nodup :=
    List.nodup_cons.mpr ⟨waits.absent first, waits.sorted.imp Nat.ne_of_lt⟩
  have within : i :: waiting ⊆ firstTime packets.length earlier (done ++ [i]) := by
    rw [List.mem_append, not_or] at first
    refine List.cons_subset.mpr ⟨mem_firstTime.mpr ⟨inside, by simp, first.1⟩, fun j member => ?_⟩
    obtain ⟨small, came, new⟩ := mem_firstTime.mp ((waits.members j).mp member).1
    exact mem_firstTime.mpr ⟨small, List.mem_append_left _ came, new⟩
  have few := (List.subperm_of_subset distinct within).length_le
  rw [List.length_cons] at few
  omega

/-- The window admits what comes for the first time. -/
theorem Accounts.admits (accounts : Accounts packets base capacity (earlier ++ done) opened)
    (fair : Fair packets capacity window (earlier ++ (done ++ [i]))) (first : i ∉ earlier ++ done) :
    ∀ n ∈ numbers packets base i, ∀ m ∈ opened, m ≠ n ∧ m < n + window := by
  intro n isNumber m isOpened
  obtain ⟨j, came, isNumber'⟩ := accounts.genuine m isOpened
  constructor
  · rintro rfl
    exact first (numbers_disjoint isNumber isNumber' ▸ came)
  · have near := fair.timely (earlier ++ done) i [] (by simp) first j came
    rw [mem_numbers] at isNumber isNumber'
    omega

/-- What came before could be read, if it comes again. -/
theorem Fair.readable (fair : Fair packets capacity window (earlier ++ (done ++ [i])))
    (again : i ∈ earlier ++ done) : (packets.getD i []).length ≤ capacity := by
  by_contra long
  have once := fair.unrepeated i (Nat.lt_of_not_le long)
  have before : 0 < (earlier ++ done).count i := List.count_pos_iff.mpr again
  rw [← List.append_assoc, List.count_append, List.count_singleton_self] at once
  omega

end Steps

/-- One packet of a round. -/
theorem Inbox.step {earlier done opened waiting : List Nat} {s : σ} {i : Nat}
    (inbox : Inbox packets base capacity window room receive drain holds)
    (fair : Fair packets capacity window (earlier ++ (done ++ [i])))
    (roomy : (firstTime packets.length earlier (done ++ [i])).length ≤ room)
    (accounts : Accounts packets base capacity (earlier ++ done) opened)
    (waits : Waits packets capacity earlier done waiting) (holding : holds opened waiting s) :
    ∃ opened' waiting', Accounts packets base capacity (earlier ++ (done ++ [i])) opened' ∧
      Waits packets capacity earlier (done ++ [i]) waiting' ∧
      holds opened' waiting' (finalState (receive i) s) := by
  have inside : i < packets.length := fair.inside i (by simp)
  by_cases again : i ∈ earlier ++ done
  · exact ⟨opened, waiting, accounts.again again, waits.again again,
      inbox.stale holding inside (accounts.all i again (fair.readable again))⟩
  · have admitted := accounts.admits fair again
    have absent := waits.absent again
    have space := waits.space inside again roomy
    by_cases short : (packets.getD i []).length ≤ capacity
    · exact ⟨_, _, accounts.opens (List.Subset.refl _) (fun _ => List.Subset.refl _),
        waits.insert inside again short absent, inbox.fresh holding inside admitted short absent space⟩
    · have long := Nat.lt_of_not_le short
      obtain ⟨part, within, holding'⟩ := inbox.long holding inside admitted long absent space
      exact ⟨_, _, accounts.opens within fun readable => absurd readable short, waits.lost long, holding'⟩

/-- The packets of a round. -/
theorem Inbox.arrives {earlier done rest opened waiting : List Nat} {s : σ}
    (inbox : Inbox packets base capacity window room receive drain holds)
    (fair : Fair packets capacity window (earlier ++ (done ++ rest)))
    (roomy : (firstTime packets.length earlier (done ++ rest)).length ≤ room)
    (accounts : Accounts packets base capacity (earlier ++ done) opened)
    (waits : Waits packets capacity earlier done waiting) (holding : holds opened waiting s) :
    Post (arrive receive rest) s
      (fun _ s' => ∃ opened' waiting', Accounts packets base capacity (earlier ++ (done ++ rest)) opened' ∧
        Waits packets capacity earlier (done ++ rest) waiting' ∧ holds opened' waiting' s')
      fun _ _ => False := by
  induction rest generalizing done opened waiting s with
  | nil =>
      rw [List.append_nil]
      exact ⟨opened, waiting, accounts, waits, holding⟩
  | cons i rest inductionHypothesis =>
      have split : done ++ i :: rest = (done ++ [i]) ++ rest := by simp
      rw [split] at fair roomy ⊢
      have fewer : (firstTime packets.length earlier (done ++ [i])).length ≤
          (firstTime packets.length earlier (done ++ [i] ++ rest)).length := by
        apply (List.subperm_of_subset (firstTime_sorted.imp Nat.ne_of_lt) ?_).length_le
        intro j member
        rw [mem_firstTime] at member ⊢
        exact ⟨member.1, List.mem_append_left _ member.2.1, member.2.2⟩
      have before : Fair packets capacity window (earlier ++ (done ++ [i])) := by
        have all : Fair packets capacity window (earlier ++ (done ++ [i]) ++ rest) := by simpa using fair
        exact all.front
      obtain ⟨opened', waiting', accounts', waits', holding'⟩ :=
        inbox.step before (Nat.le_trans fewer roomy) accounts waits holding
      unfold arrive
      rw [post_bind]
      exact inductionHypothesis fair roomy accounts' waits' holding'

theorem Roomy.inOrder (some : 0 < room) : Roomy packets room (inOrder packets.length) := by
  intro before round after split
  have member : round ∈ Delivery.inOrder packets.length := by
    rw [split]
    simp
  obtain ⟨i, -, rfl⟩ := List.mem_map.mp member
  have within : firstTime packets.length before.flatten [i] ⊆ [i] :=
    fun j first => (mem_firstTime.mp first).2.1
  have few := (List.subperm_of_subset (firstTime_sorted.imp Nat.ne_of_lt) within).length_le
  exact Nat.le_trans few some

theorem Fair.inOrder : Fair packets capacity window (inOrder packets.length).flatten := by
  have flat : (Delivery.inOrder packets.length).flatten = List.range packets.length := by
    unfold Delivery.inOrder
    rw [← List.flatMap_def]
    simp
  rw [flat]
  refine ⟨fun i member => List.mem_range.mp member, ?_, fun i _ => ?_⟩
  · intro before i after split first j member
    have sorted : (before ++ i :: after).Pairwise (· < ·) := split ▸ List.pairwise_lt_range
    have less := (List.pairwise_append.mp sorted).2.2 j member i List.mem_cons_self
    exact Nat.le_add_right_of_le (start_mono less)
  · exact List.nodup_iff_count_le_one.mp List.nodup_range i

/-- What a receiver hands out over rounds in which packets come and its queue is drained. -/
theorem Inbox.plays {rounds : List (List Nat)} {earlier : List (List Nat)} {opened : List Nat} {s : σ}
    (inbox : Inbox packets base capacity window room receive drain holds)
    (fair : Fair packets capacity window (earlier ++ rounds).flatten)
    (roomy : Roomy packets room (earlier ++ rounds))
    (accounts : Accounts packets base capacity earlier.flatten opened) (holding : holds opened [] s) :
    Post (play receive drain rounds) s
      (fun items _ => items = delivered (packets.map (legible capacity)) earlier.flatten rounds)
      fun _ _ => False := by
  induction rounds generalizing earlier opened s with
  | nil => rfl
  | cons round rest inductionHypothesis =>
      have split : earlier ++ round :: rest = (earlier ++ [round]) ++ rest := by simp
      have here : Fair packets capacity window (earlier.flatten ++ ([] ++ round)) := by
        have all : Fair packets capacity window (earlier.flatten ++ ([] ++ round) ++ rest.flatten) := by
          simpa using fair
        exact all.front
      have none : Waits packets capacity earlier.flatten [] [] := by
        refine ⟨.nil, fun i => ?_⟩
        simp [mem_firstTime]
      unfold play
      rw [post_bind]
      refine (inbox.arrives here (roomy earlier round rest rfl) (by simpa using accounts) none
        holding).mono ?_ fun _ _ => id
      rintro _ s₁ ⟨opened', waiting', accounts', waits', holding'⟩
      rw [post_bind]
      refine (inbox.drained holding').mono ?_ fun _ _ => id
      rintro _ s₂ ⟨rfl, holding₂⟩
      rw [post_bind]
      have flat : (earlier ++ [round]).flatten = earlier.flatten ++ round := by simp
      refine (inductionHypothesis (split ▸ fair) (split ▸ roomy)
        (by simpa [flat] using accounts') holding₂).mono ?_ fun _ _ => id
      rintro _ s₃ rfl
      rw [post_pure, delivered, waits'.flatMap, List.length_map, flat, List.nil_append]

end Playing

end Delivery
