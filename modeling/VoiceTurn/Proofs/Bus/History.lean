import Mathlib.Data.List.DropRight
import VoiceTurn.Proofs.Bus.Dispatch

/-!
# What a bus answers, and what it remembers

A bus within the process keeps no more than what has been done to it says (`Room.KeepsTo`): it is
closed once it has been told to close, the refusals that are left are those of the latest order less
the messages that have come since then, and the log holds the latest messages that it has taken. So
the answer to every message, and the log at any time, can be told from the operations before
(`Room.answers_follow_history`).
-/

namespace VoiceTurn.Bus

open Topic (isPublishable)

/-! ## Refusals that have been ordered -/

namespace Act

/-- Whether an operation publishes a message that an open bus does not refuse for its topic. -/
def isUsable : Act → Bool
  | publish m => isPublishable m.topic
  | _ => false

/-- A refusal is still to come: since the latest `refuseNext` fewer operations were `isUsable` than
refusals ordered. -/
def RefusesAfter (acts : List Act) : Prop :=
  ∃ earlier count since, acts = earlier ++ refuseNext count :: since ∧
    (∀ other, refuseNext other ∉ since) ∧ since.countP isUsable < count

def refusalsLeft (left : Nat) : Act → Nat
  | refuseNext count => count
  | publish m => if isPublishable m.topic then left - 1 else left
  | _ => left

/-- Repeated `refusalsLeft`, from none. -/
def refusalsAfter (acts : List Act) : Nat := acts.foldl refusalsLeft 0

/-- Without a new order, every message that `isUsable` uses up a refusal. -/
lemma foldl_refusalsLeft {since : List Act} (h : ∀ other, refuseNext other ∉ since) (left : Nat) :
    since.foldl refusalsLeft left = left - since.countP isUsable := by
  induction since generalizing left with
  | nil => rfl
  | cons act since ih =>
    have hsince : ∀ other, refuseNext other ∉ since :=
      fun other hmem => h other (List.mem_cons_of_mem act hmem)
    rw [List.foldl_cons, ih hsince, List.countP_cons]
    cases act with
    | publish m =>
      cases hm : isPublishable m.topic <;> simp only [refusalsLeft, isUsable, hm, if_true, if_false,
        Bool.false_eq_true] <;> omega
    | refuseNext count => exact absurd List.mem_cons_self (h count)
    | _ => simp [refusalsLeft, isUsable]

/-- Either there is no `refuseNext`, or there is a latest one. -/
lemma exists_latest_order (acts : List Act) :
    (∀ count, refuseNext count ∉ acts) ∨
      ∃ earlier count since, acts = earlier ++ refuseNext count :: since ∧
        ∀ other, refuseNext other ∉ since := by
  induction acts with
  | nil => exact .inl fun _ => List.not_mem_nil
  | cons act acts ih =>
    rcases ih with hnone | ⟨earlier, count, since, rfl, hsince⟩
    · by_cases horder : ∃ count, act = refuseNext count
      · obtain ⟨count, rfl⟩ := horder
        exact .inr ⟨[], count, acts, rfl, hnone⟩
      · refine .inl fun count hmem => ?_
        rcases List.mem_cons.1 hmem with heq | hmem
        · exact horder ⟨count, heq.symm⟩
        · exact hnone count hmem
    · exact .inr ⟨act :: earlier, count, since, rfl, hsince⟩

lemma refusesAfter_iff (acts : List Act) : RefusesAfter acts ↔ 0 < refusalsAfter acts := by
  have hleft (earlier : List Act) (count : Nat) {since : List Act}
      (hsince : ∀ other, refuseNext other ∉ since) :
      refusalsAfter (earlier ++ refuseNext count :: since) = count - since.countP isUsable := by
    rw [refusalsAfter, List.foldl_append, List.foldl_cons]
    exact foldl_refusalsLeft hsince count
  constructor
  · rintro ⟨earlier, count, since, rfl, hsince, hlt⟩
    rw [hleft earlier count hsince]
    omega
  · intro hpos
    rcases exists_latest_order acts with hnone | ⟨earlier, count, since, rfl, hsince⟩
    · rw [refusalsAfter, foldl_refusalsLeft hnone, Nat.zero_sub] at hpos
      cases hpos
    · rw [hleft earlier count hsince] at hpos
      exact ⟨earlier, count, since, rfl, hsince, by omega⟩

end Act

/-! ## The log -/

/-- The message of a `publish` that is `done`. -/
def taken? : Act × Reply → Option Message
  | (.publish m, .done) => some m
  | _ => none

/-- A `record` keeps a log of the latest messages. -/
lemma Local.log_record {ρ : Type} {b : Local ρ} {ms : List Message}
    (h : b.log = ms.rtake b.capacity) (m : Message) :
    (b.record m).log = (ms ++ [m]).rtake b.capacity := by
  rcases hcapacity : b.capacity with _ | k
  · rw [record, if_pos hcapacity, h, hcapacity, List.rtake_zero, List.rtake_zero]
  · have hlog : b.log = ms.drop (ms.length - (k + 1)) := by rw [h, hcapacity, List.rtake]
    have hlength : b.log.length = min ms.length (k + 1) := by
      rw [hlog, List.length_drop]
      omega
    have hnonzero : ¬ b.capacity = 0 := by omega
    rw [record, if_neg hnonzero, List.rtake_concat_succ]
    refine congrArg (· ++ [m]) ?_
    rw [List.rtake]
    split
    · -- the log is full, and the oldest message gives way
      have hmore : ms.length - (k + 1) + 1 = ms.length - k := by omega
      rw [hlog, List.drop_drop, hmore]
    · have hall : ms.length - (k + 1) = ms.length - k := by omega
      rw [hlog, hall]

lemma Local.record_eq {ρ : Type} (b : Local ρ) (m : Message) :
    b.record m = { b with log := (b.record m).log } := by
  unfold record
  split <;> rfl

/-! ## Answers -/

/-- What a message is answered after the operations `acts`. -/
structure IsAnsweredAfter (acts : List Act) (m : Message) (reply : Reply) : Prop where
  closed : .close ∈ acts → reply = .failed .closed
  unusable : .close ∉ acts → isPublishable m.topic = false →
    reply = .failed (.invalidTopic m.topic)
  refused : .close ∉ acts → isPublishable m.topic = true →
    (reply = .failed (.publish m.topic "injected failure") ↔ Act.RefusesAfter acts)
  taken : .close ∉ acts → isPublishable m.topic = true →
    (reply = .done ↔ ¬ Act.RefusesAfter acts)

namespace Room

/-- What a bus keeps, told by its `history`. -/
structure KeepsTo (capacity : Nat) (history : List (Act × Reply)) (r : Room) : Prop where
  capacity_eq : r.bus.capacity = capacity
  isClosed_iff : r.bus.isClosed = true ↔ .close ∈ history.map Prod.fst
  refusals_eq : r.bus.isClosed = false →
    r.bus.refusals = Act.refusalsAfter (history.map Prod.fst)
  log_eq : r.bus.log = (history.filterMap taken?).rtake capacity

/-- Everything that `publish` can come to, in the order of the checks. -/
lemma perform_publish_cases (r : Room) (m : Message) :
    (r.bus.isClosed = true ∧ r.perform (.publish m) = (.failed .closed, [], r)) ∨
    (r.bus.isClosed = false ∧ isPublishable m.topic = false ∧
      r.perform (.publish m) = (.failed (.invalidTopic m.topic), [], r)) ∨
    (r.bus.isClosed = false ∧ isPublishable m.topic = true ∧ 0 < r.bus.refusals ∧
      r.perform (.publish m) = (.failed (.publish m.topic "injected failure"), [],
        { r with bus := { r.bus with refusals := r.bus.refusals - 1 } })) ∨
    (r.Takes m ∧ r.perform (.publish m) =
      (.done, r.bus.subscriptions.deliveries m, { r with bus := r.bus.record m })) := by
  cases hclosed : r.bus.isClosed with
  | true => exact .inl ⟨rfl, by simp [perform, Local.publish, hclosed]⟩
  | false =>
    cases htopic : isPublishable m.topic with
    | false => exact .inr (.inl ⟨rfl, rfl, by simp [perform, Local.publish, hclosed, htopic]⟩)
    | true =>
      cases hrefusals : r.bus.refusals with
      | succ n =>
        refine .inr (.inr (.inl ⟨rfl, rfl, Nat.succ_pos n, ?_⟩))
        simp [perform, Local.publish, hclosed, htopic, hrefusals]
      | zero =>
        have htakes : r.Takes m := ⟨hclosed, htopic, hrefusals⟩
        exact .inr (.inr (.inr ⟨htakes, r.perform_publish_of_takes htakes⟩))

namespace KeepsTo

variable {capacity : Nat} {history : List (Act × Reply)} {r : Room}

lemma length_log_le (h : r.KeepsTo capacity history) : r.bus.log.length ≤ capacity := by
  rw [h.log_eq, List.rtake, List.length_drop]
  omega

/-- The answer to a message can be told from the operations before (`IsAnsweredAfter`). -/
lemma isAnsweredAfter (h : r.KeepsTo capacity history) (m : Message) :
    IsAnsweredAfter (history.map Prod.fst) m (r.perform (.publish m)).1 := by
  have hopen : .close ∉ history.map Prod.fst ↔ r.bus.isClosed = false := by
    rw [← h.isClosed_iff, Bool.not_eq_true]
  have hrefuses (hbus : r.bus.isClosed = false) :
      Act.RefusesAfter (history.map Prod.fst) ↔ 0 < r.bus.refusals := by
    rw [Act.refusesAfter_iff, h.refusals_eq hbus]
  rcases r.perform_publish_cases m with
    ⟨hclosed, heq⟩ | ⟨hbus, htopic, heq⟩ | ⟨hbus, htopic, hpos, heq⟩ | ⟨⟨hbus, htopic, hzero⟩, heq⟩
  · have hmem := h.isClosed_iff.1 hclosed
    rw [heq]
    exact ⟨fun _ => rfl, fun hno => absurd hmem hno, fun hno => absurd hmem hno,
      fun hno => absurd hmem hno⟩
  · have hno := hopen.2 hbus
    rw [heq]
    refine ⟨fun hmem => absurd hmem hno, fun _ _ => rfl, fun _ ht => ?_, fun _ ht => ?_⟩ <;>
    · rw [htopic] at ht
      cases ht
  · have hno := hopen.2 hbus
    rw [heq]
    refine ⟨fun hmem => absurd hmem hno, fun _ ht => ?_, fun _ _ => ?_, fun _ _ => ?_⟩
    · rw [htopic] at ht
      cases ht
    · exact iff_of_true rfl ((hrefuses hbus).2 hpos)
    · exact iff_of_false nofun (not_not_intro ((hrefuses hbus).2 hpos))
  · have hno := hopen.2 hbus
    have hnone : ¬ Act.RefusesAfter (history.map Prod.fst) := by
      rw [hrefuses hbus, hzero]
      exact Nat.lt_irrefl 0
    rw [heq]
    refine ⟨fun hmem => absurd hmem hno, fun _ ht => ?_, fun _ _ => ?_, fun _ _ => ?_⟩
    · rw [htopic] at ht
      cases ht
    · exact iff_of_false nofun hnone
    · exact iff_of_true rfl hnone

lemma concat (h : r.KeepsTo capacity history) {r' : Room} {act : Act} {reply : Reply}
    (hcapacity : r'.bus.capacity = r.bus.capacity)
    (hclosed : r'.bus.isClosed = true ↔ r.bus.isClosed = true ∨ act = .close)
    (hrefusals : r.bus.isClosed = false →
      r'.bus.refusals = Act.refusalsLeft r.bus.refusals act)
    (hlog : r'.bus.log =
      (history.filterMap taken? ++ (taken? (act, reply)).toList).rtake capacity) :
    r'.KeepsTo capacity (history ++ [(act, reply)]) where
  capacity_eq := hcapacity.trans h.capacity_eq
  isClosed_iff := by
    rw [hclosed, h.isClosed_iff, List.map_append, List.mem_append, List.map_singleton,
      List.mem_singleton, eq_comm]
  refusals_eq := by
    intro hopen
    have hbefore : r.bus.isClosed = false := by
      rw [← Bool.not_eq_true] at hopen ⊢
      exact fun hr => hopen (hclosed.2 (.inl hr))
    rw [hrefusals hbefore, h.refusals_eq hbefore, Act.refusalsAfter, Act.refusalsAfter,
      List.map_append, List.foldl_append]
    rfl
  log_eq := by
    rw [hlog, List.filterMap_append]
    cases htaken : taken? (act, reply) <;> simp [htaken]

/-- Every `perform` keeps to what has been done. -/
lemma perform (h : r.KeepsTo capacity history) (act : Act) :
    (r.perform act).2.2.KeepsTo capacity (history ++ [(act, (r.perform act).1)]) := by
  have hsame : r.bus.log = (history.filterMap taken? ++ []).rtake capacity := by
    rw [List.append_nil, h.log_eq]
  cases act with
  | publish m =>
    rcases r.perform_publish_cases m with
      ⟨hclosed, heq⟩ | ⟨-, htopic, heq⟩ | ⟨-, htopic, -, heq⟩ | ⟨⟨-, htopic, hzero⟩, heq⟩
    · rw [heq]
      refine h.concat rfl (by simp) (fun hopen => ?_) hsame
      rw [hclosed] at hopen
      cases hopen
    · rw [heq]
      exact h.concat rfl (by simp) (fun _ => by simp [Act.refusalsLeft, htopic]) hsame
    · rw [heq]
      exact h.concat rfl (by simp) (fun _ => by simp [Act.refusalsLeft, htopic]) hsame
    · have hlog : r.bus.log = (history.filterMap taken?).rtake r.bus.capacity := by
        rw [h.log_eq, h.capacity_eq]
      have hrecord := Local.log_record hlog m
      rw [h.capacity_eq] at hrecord
      rw [heq, Local.record_eq]
      exact h.concat rfl (by simp) (fun _ => by simp [Act.refusalsLeft, htopic, hzero]) hrecord
  | subscribe filter qos label script runs =>
    by_cases hadmits : r.Admits filter
    · rw [r.perform_subscribe_of_admits hadmits]
      exact h.concat rfl (by simp) (fun _ => rfl) hsame
    · obtain ⟨f, heq⟩ := r.perform_subscribe_of_not_admits hadmits qos label script runs
      rw [heq]
      exact h.concat rfl (by simp) (fun _ => rfl) hsame
  | close => exact h.concat rfl (by simp [Room.perform, Local.close]) (fun _ => rfl) hsame
  | refuseNext | unsubscribe | readLog | readName =>
    exact h.concat rfl (by simp [Room.perform, Local.refuseNext, Local.unsubscribe])
      (fun _ => rfl) hsame

lemma of_bus_eq (h : r.KeepsTo capacity history) {r' : Room} (hbus : r'.bus = r.bus) :
    r'.KeepsTo capacity history := by
  obtain ⟨hcapacity, hclosed, hrefusals, hlog⟩ := h
  constructor <;> rw [hbus] <;> assumption

end KeepsTo

/-- Every answer was given by a bus that `KeepsTo` the operations before it. -/
def IsConsistent (capacity : Nat) (history : List (Act × Reply)) : Prop :=
  ∀ (i : Nat) (act : Act) (reply : Reply), history[i]? = some (act, reply) →
    ∃ r : Room, r.KeepsTo capacity (history.take i) ∧ (r.perform act).1 = reply

lemma IsConsistent.concat {capacity : Nat} {history : List (Act × Reply)}
    (h : IsConsistent capacity history) {r : Room} (hr : r.KeepsTo capacity history) (act : Act) :
    IsConsistent capacity (history ++ [(act, (r.perform act).1)]) := by
  intro i act' reply hi
  -- an answer given before, the answer just given, or none
  rcases Nat.lt_trichotomy i history.length with hlt | rfl | hlt
  · rw [List.getElem?_append_left hlt] at hi
    rw [List.take_append_of_le_length (Nat.le_of_lt hlt)]
    exact h i act' reply hi
  · rw [List.getElem?_concat_length] at hi
    cases hi
    rw [List.take_left]
    exact ⟨r, hr, rfl⟩
  · have hlength : (history ++ [(act, (r.perform act).1)]).length ≤ i := by
      rw [List.length_append, List.length_singleton]
      exact hlt
    rw [List.getElem?_eq_none hlength] at hi
    cases hi

/-- Wherever a bus can be, it `KeepsTo` what has been done, and its answers were given
accordingly. -/
lemma Reaches.keepsTo {capacity : Nat} {history : List (Act × Reply)} {r : Room}
    {tasks : List Task} (h : Reaches { bus := { capacity } } history r tasks) :
    r.KeepsTo capacity history ∧ IsConsistent capacity history := by
  induction h with
  | start =>
    refine ⟨⟨rfl, by simp, fun _ => rfl, by simp⟩, ?_⟩
    intro i act reply hi
    cases hi
  | order act _ ih => exact ⟨ih.1.perform act, ih.2.concat ih.1 act⟩
  | @step history r t tasks _ ih =>
    cases t with
    | deliver index m =>
      rw [actsOf, List.append_nil]
      exact ⟨ih.1.of_bus_eq (r.bus_receive index m), ih.2⟩
    | perform label act => exact ⟨ih.1.perform act, ih.2.concat ih.1 act⟩
    | note label reply =>
      rw [actsOf, List.append_nil]
      exact ⟨ih.1.of_bus_eq rfl, ih.2⟩

/-- Whatever has been done to a bus, from outside and by its listeners: a message is answered as
`IsAnsweredAfter` tells from the operations before it, and the log holds, at any time, the latest
messages that were `taken?`, as many as it has room for. -/
theorem answers_follow_history {capacity : Nat} {history : List (Act × Reply)} {r : Room}
    {tasks : List Task} (h : Reaches { bus := { capacity } } history r tasks) :
    (∀ (i : Nat) (m : Message) (reply : Reply), history[i]? = some (.publish m, reply) →
      IsAnsweredAfter ((history.take i).map Prod.fst) m reply) ∧
    (∀ (i : Nat) (reply : Reply), history[i]? = some (.readLog, reply) →
      reply = .messages (((history.take i).filterMap taken?).rtake capacity)) ∧
    r.bus.log = (history.filterMap taken?).rtake capacity := by
  obtain ⟨hkeeps, hconsistent⟩ := h.keepsTo
  refine ⟨fun i m reply hi => ?_, fun i reply hi => ?_, hkeeps.log_eq⟩
  · obtain ⟨r', hr', rfl⟩ := hconsistent i _ reply hi
    exact hr'.isAnsweredAfter m
  · obtain ⟨r', hr', rfl⟩ := hconsistent i _ reply hi
    exact congrArg Reply.messages hr'.log_eq

def call (payload : UInt8) : Message := ⟨"a", [payload], .atLeastOnce⟩

/-- An unusable topic does not use up a refusal, a new order takes the place of the one before, and
a log for two messages holds the last two. -/
theorem answers_follow_history_of_drill :
    let invalid : Message := ⟨"a/#", [], .atMostOnce⟩
    ∃ history r, Reaches { bus := { capacity := 2 } } history r [] ∧
      history.map Prod.fst = [.refuseNext 3, .publish (call 1), .refuseNext 1, .publish invalid,
        .publish (call 2), .publish (call 3), .publish (call 4), .publish (call 5)] ∧
      (∃ reply, history[3]? = some (.publish invalid, reply) ∧
        reply = .failed (.invalidTopic "a/#")) ∧
      (∃ reply, history[4]? = some (.publish (call 2), reply) ∧
        reply = .failed (.publish "a" "injected failure")) ∧
      (∃ reply, history[5]? = some (.publish (call 3), reply) ∧ reply = .done) ∧
      r.bus.log = [call 4, call 5] := by
  have h₀ : Reaches { bus := { capacity := 2 } } [] { bus := { capacity := 2 } } [] := .start
  have h₁ := ((h₀.order (.refuseNext 3)).order (.publish (call 1))).order (.refuseNext 1)
  have h₂ := (h₁.order (.publish ⟨"a/#", [], .atMostOnce⟩)).order (.publish (call 2))
  have h₃ := ((h₂.order (.publish (call 3))).order (.publish (call 4))).order (.publish (call 5))
  obtain ⟨hanswers, -, hlog⟩ := answers_follow_history h₃
  refine ⟨_, _, h₃, rfl, ⟨_, rfl, ?_⟩, ⟨_, rfl, ?_⟩, ⟨_, rfl, ?_⟩, hlog.trans ?_⟩
  · have hanswer := hanswers 3 ⟨"a/#", [], .atMostOnce⟩ _ rfl
    exact hanswer.unusable (by simp) (by decide +kernel)
  · have hanswer := hanswers 4 (call 2) _ rfl
    have hrefuses : Act.RefusesAfter [.refuseNext 3, .publish (call 1), .refuseNext 1,
        .publish ⟨"a/#", [], .atMostOnce⟩] :=
      ⟨[.refuseNext 3, .publish (call 1)], 1, [.publish ⟨"a/#", [], .atMostOnce⟩], rfl, by simp,
        by decide +kernel⟩
    exact (hanswer.refused (by simp) (by decide +kernel)).2 hrefuses
  · have hanswer := hanswers 5 (call 3) _ rfl
    have hnone : ¬ Act.RefusesAfter [.refuseNext 3, .publish (call 1), .refuseNext 1,
        .publish ⟨"a/#", [], .atMostOnce⟩, .publish (call 2)] := by
      rw [Act.refusesAfter_iff]
      decide +kernel
    exact (hanswer.taken (by simp) (by decide +kernel)).2 hnone
  · decide +kernel

end Room

end VoiceTurn.Bus
