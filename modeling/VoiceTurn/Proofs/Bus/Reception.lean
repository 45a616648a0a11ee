import Mathlib.Data.List.Permutation
import VoiceTurn.Proofs.Bus.Dispatch

/-!
# What listeners receive

A message that a bus takes is received by the listeners whose subscriptions were in force and
matched when the bus took it, by each of them once and in the order of the subscriptions, although
the listeners may subscribe and unsubscribe whatever they like meanwhile
(`Room.delivery_is_exact`). As long as the listeners publish nothing themselves, these are the only
messages that are received (`Room.received_work`).
-/

namespace VoiceTurn.Bus

open Topic (isMatch)

lemma Qos.level_weaker (a b : Qos) : (a.weaker b).level = min a.level b.level := by
  cases a <;> cases b <;> rfl

/-! ## Listeners that publish nothing -/

namespace Act

mutual

/-- Whether an operation publishes nothing, and neither do the scripts that come with it. -/
def isQuiet : Act → Bool
  | subscribe _ _ _ script _ => isQuietScript script
  | publish _ => false
  | _ => true

def isQuietScript : List Act → Bool
  | [] => true
  | a :: as => a.isQuiet && isQuietScript as

end

lemma isQuiet_of_mem {script : List Act} (h : isQuietScript script = true) {a : Act}
    (ha : a ∈ script) : a.isQuiet = true := by
  induction script with
  | nil => exact absurd ha List.not_mem_nil
  | cons b script ih =>
    rw [isQuietScript, Bool.and_eq_true] at h
    rcases List.mem_cons.1 ha with rfl | ha
    · exact h.1
    · exact ih h.2 ha

end Act

def Note.received? : Note → Option (String × Message)
  | .received label m => some (label, m)
  | .replied .. => none

namespace Room

/-- What the listeners have `received?` so far, in order. -/
def received (r : Room) : List (String × Message) := r.notes.reverse.filterMap Note.received?

def labelOf (r : Room) (index : Nat) : String := (r.listeners[index]?.map Listener.label).getD ""

def handedBy? (r : Room) : Task → Option (String × Message)
  | .deliver index m => some (r.labelOf index, m)
  | .perform .. | .note .. => none

/-- No `script` of a listener publishes anything. -/
def IsQuiet (r : Room) : Prop := ∀ l ∈ r.listeners, Act.isQuietScript l.script = true

/-- A task that publishes nothing, and concerns a listener that is there. -/
def IsCalm (r : Room) : Task → Prop
  | .deliver index _ => index < r.listeners.length
  | .perform _ act => act.isQuiet = true
  | .note .. => True

/-- The listeners of `r` are there in `r'`, and perhaps more. -/
def Extends (r' r : Room) : Prop :=
  r.listeners.map Listener.label <+: r'.listeners.map Listener.label

lemma Extends.of_eq {r r' : Room} (h : r'.listeners = r.listeners) : r'.Extends r := by
  refine ⟨[], ?_⟩
  rw [h, List.append_nil]

lemma Extends.labelOf_eq {r r' : Room} (h : r'.Extends r) {index : Nat}
    (hindex : index < r.listeners.length) : r'.labelOf index = r.labelOf index := by
  have hprefix := h.getElem (by rwa [List.length_map])
  have hlength := h.length_le
  rw [List.length_map, List.length_map] at hlength
  have hindex' : index < r'.listeners.length := Nat.lt_of_lt_of_le hindex hlength
  rw [List.getElem_map, List.getElem_map] at hprefix
  rw [labelOf, labelOf, List.getElem?_eq_getElem hindex, List.getElem?_eq_getElem hindex']
  exact hprefix.symm

lemma Extends.isCalm {r r' : Room} (h : r'.Extends r) {t : Task} (ht : r.IsCalm t) :
    r'.IsCalm t := by
  have hlength := h.length_le
  rw [List.length_map, List.length_map] at hlength
  cases t with
  | deliver index m => exact Nat.lt_of_lt_of_le ht hlength
  | perform | note => exact ht

lemma Extends.handedBy {r r' : Room} (h : r'.Extends r) {tasks : List Task}
    (htasks : ∀ t ∈ tasks, r.IsCalm t) :
    tasks.filterMap r'.handedBy? = tasks.filterMap r.handedBy? := by
  refine List.filterMap_congr fun t ht => ?_
  cases t with
  | deliver index m =>
    rw [handedBy?, handedBy?, h.labelOf_eq (htasks _ ht)]
  | perform | note => rfl

variable (r : Room)

/-- A `receive` notes the message, and begins a script that publishes nothing. -/
lemma receive_calm (hquiet : r.IsQuiet) {index : Nat} (hindex : index < r.listeners.length)
    (m : Message) :
    (r.receive index m).2.IsQuiet ∧ (r.receive index m).2.Extends r ∧
      (∀ t ∈ (r.receive index m).1, ∃ label act, t = .perform label act ∧ act.isQuiet = true) ∧
      (r.receive index m).2.received = r.received ++ [(r.labelOf index, m)] := by
  have hl := List.getElem?_eq_getElem hindex
  generalize r.listeners[index] = l at hl
  have hmem : l ∈ r.listeners := List.mem_of_getElem? hl
  have hlabel : r.labelOf index = l.label := by rw [labelOf, hl]; rfl
  have hreceived (listeners : List Listener) :
      ({ r with listeners, notes := .received l.label m :: r.notes } : Room).received =
        r.received ++ [(l.label, m)] := by
    simp [received, Note.received?]
  rw [hlabel]
  rcases r.receive_cases hl m with heq | ⟨runs, heq⟩
  · rw [heq]
    exact ⟨hquiet, .of_eq rfl, fun t ht => absurd ht List.not_mem_nil, hreceived _⟩
  · rw [heq]
    refine ⟨fun l' hl' => ?_, ?_, fun t ht => ?_, hreceived _⟩
    · rcases List.mem_or_eq_of_mem_set hl' with hl' | rfl
      · exact hquiet l' hl'
      · exact hquiet l hmem
    · -- the label of the listener that has received the message is the same as before
      have hsame : (r.listeners.map Listener.label).set index l.label =
          r.listeners.map Listener.label := by
        obtain ⟨hlt, rfl⟩ := List.getElem?_eq_some_iff.1 hl
        rw [← List.map_set, List.set_getElem_self]
      refine ⟨[], ?_⟩
      rw [List.append_nil, List.map_set, hsame]
    · obtain ⟨act, hact, rfl⟩ := List.mem_map.1 ht
      exact ⟨l.label, act, rfl, Act.isQuiet_of_mem (hquiet l hmem) hact⟩

/-- An operation that `isQuiet` hands over nothing. -/
lemma perform_calm (hquiet : r.IsQuiet) {act : Act} (hact : act.isQuiet = true) :
    (r.perform act).2.1 = [] ∧ (r.perform act).2.2.IsQuiet ∧ (r.perform act).2.2.Extends r ∧
      (r.perform act).2.2.notes = r.notes := by
  cases act with
  | subscribe filter qos label script runs =>
    by_cases hadmits : r.Admits filter
    · rw [r.perform_subscribe_of_admits hadmits]
      refine ⟨rfl, fun l hl => ?_, ?_, rfl⟩
      · rcases List.mem_append.1 hl with hl | hl
        · exact hquiet l hl
        · obtain rfl := List.mem_singleton.1 hl
          exact hact
      · rw [Extends, List.map_append]
        exact List.prefix_append _ _
    · obtain ⟨f, heq⟩ := r.perform_subscribe_of_not_admits hadmits qos label script runs
      rw [heq]
      exact ⟨rfl, hquiet, .of_eq rfl, rfl⟩
  | publish m => cases hact
  | unsubscribe | refuseNext | close | readLog | readName =>
    exact ⟨rfl, hquiet, .of_eq rfl, rfl⟩

/-- Calm tasks stay calm, and `received` and what is still to be handed over stay the same
together. -/
lemma step_calm (hquiet : r.IsQuiet) {t : Task} {tasks : List Task}
    (hcalm : ∀ u ∈ t :: tasks, r.IsCalm u) :
    (r.step t tasks).2.IsQuiet ∧
      (∀ u ∈ (r.step t tasks).1, (r.step t tasks).2.IsCalm u) ∧
      (r.step t tasks).2.received ++ (r.step t tasks).1.filterMap (r.step t tasks).2.handedBy? =
        r.received ++ (t :: tasks).filterMap r.handedBy? := by
  have ht : r.IsCalm t := hcalm t List.mem_cons_self
  have htasks : ∀ u ∈ tasks, r.IsCalm u := fun u hu => hcalm u (List.mem_cons_of_mem _ hu)
  cases t with
  | deliver index m =>
    obtain ⟨hquiet', hextends, hscript, hreceived⟩ := r.receive_calm hquiet ht m
    -- what the receiver is to do goes in front of the other tasks and hands nothing over
    have hnothing : (r.receive index m).1.filterMap (r.receive index m).2.handedBy? = [] := by
      rw [List.filterMap_eq_nil_iff]
      intro u hu
      obtain ⟨label, act, rfl, -⟩ := hscript u hu
      rfl
    refine ⟨hquiet', fun u hu => ?_, ?_⟩
    · rcases List.mem_append.1 hu with hu | hu
      · obtain ⟨label, act, rfl, hact⟩ := hscript u hu
        exact hact
      · exact hextends.isCalm (htasks u hu)
    · show (r.receive index m).2.received ++
        ((r.receive index m).1 ++ tasks).filterMap (r.receive index m).2.handedBy? = _
      rw [List.filterMap_append, hnothing, hextends.handedBy htasks, hreceived]
      simp [handedBy?]
  | perform label act =>
    obtain ⟨hnone, hquiet', hextends, hnotes⟩ := r.perform_calm hquiet ht
    have hstep : r.step (.perform label act) tasks =
        (.note label (r.perform act).1 :: tasks, (r.perform act).2.2) := by
      simp [step, hnone]
    rw [hstep]
    refine ⟨hquiet', fun u hu => ?_, ?_⟩
    · rcases List.mem_cons.1 hu with rfl | hu
      · trivial
      · exact hextends.isCalm (htasks u hu)
    · show (r.perform act).2.2.received ++ tasks.filterMap (r.perform act).2.2.handedBy? =
        r.received ++ tasks.filterMap r.handedBy?
      rw [hextends.handedBy htasks, received, hnotes, received]
  | note label reply =>
    have hreceived : ({ r with notes := .replied label reply :: r.notes } : Room).received =
        r.received := by
      simp [received, Note.received?]
    exact ⟨hquiet, htasks, congrArg (· ++ tasks.filterMap r.handedBy?) hreceived⟩

/-- Listeners that publish nothing receive what the tasks at hand hand over (`handedBy?`), in
order. -/
lemma received_work (hquiet : r.IsQuiet) {tasks : List Task} (hcalm : ∀ t ∈ tasks, r.IsCalm t) :
    (r.work tasks).received = r.received ++ tasks.filterMap r.handedBy? := by
  induction r, tasks using Room.work.induct with
  | case1 r => rw [Room.work, List.filterMap_nil, List.append_nil]
  | case2 r t tasks ih =>
    obtain ⟨hquiet', hcalm', hreceived⟩ := r.step_calm hquiet hcalm
    rw [Room.work, ih hquiet' hcalm', hreceived]

/-- Each `hand` of a delivery to listeners that publish nothing is received, and nothing else is. -/
lemma received_foldl_hand (hquiet : r.IsQuiet) {ds : List (Delivery Nat)}
    (hcalm : ∀ t ∈ handOver ds, r.IsCalm t) :
    (ds.foldl hand r).received =
      r.received ++ ds.map fun d => (r.labelOf d.receiver, d.message) := by
  have hwork := r.work_handOver ds []
  rw [List.append_nil, Room.work] at hwork
  rw [← hwork, r.received_work hquiet hcalm, handOver, List.filterMap_map]
  exact congrArg (r.received ++ ·) (congrFun List.filterMap_eq_map ds)

/-! ## Exact delivery -/

end Room

/-- A delivery hands a message to the receiver of a subscription, with the weaker of the two
guarantees. -/
structure Delivery.IsFor (d : Delivery Nat) (m : Message) (e : Subscription Nat) : Prop where
  receiver : d.receiver = e.receiver
  topic : d.message.topic = m.topic
  payload : d.message.payload = m.payload
  level : d.message.qos.level = min e.qos.level m.qos.level

/-- There is one delivery for every entry that matches, in their order. -/
lemma forall₂_deliveries (t : Subscriptions Nat) (m : Message) :
    List.Forall₂ (fun e d => d.IsFor m e) (t.entries.filter fun e => isMatch e.filter m.topic)
      (t.deliveries m) := by
  rw [Subscriptions.deliveries, List.forall₂_map_right_iff]
  exact List.forall₂_same.2 fun e _ => ⟨rfl, rfl, rfl, Qos.level_weaker _ _⟩

namespace Room

/-- On a bus that `IsOrderly`, deliveries concern listeners that are there. -/
lemma IsOrderly.isCalm {r : Room} {history : List (Act × Reply)} (h : r.IsOrderly history)
    (m : Message) : ∀ t ∈ handOver (r.bus.subscriptions.deliveries m), r.IsCalm t := by
  intro t ht
  obtain ⟨d, hd, rfl⟩ := List.mem_map.1 ht
  obtain ⟨e, he, rfl⟩ := List.mem_map.1 hd
  have hreceiver := h.receivers.subset (List.mem_map_of_mem (List.mem_of_mem_filter he))
  exact List.mem_range.1 hreceiver

/-- Whatever has been done to a bus, also between two deliveries of one message, it `IsOrderly`. A
message that it `Takes` is handed, once and in order, to the receivers that match in the table as it
is then, whatever they do meanwhile; any other one changes nothing but the refusals that are
ordered. -/
theorem delivery_is_exact {capacity : Nat} {history : List (Act × Reply)} {r : Room}
    {tasks : List Task} (h : Reaches { bus := { capacity } } history r tasks) :
    r.IsOrderly history ∧
    -- a subscription is put behind the others or refused
    (∀ filter qos label script runs,
      (r.Admits filter → ∃ r', r.perform (.subscribe filter qos label script runs) =
          (.subscribed (r.bus.subscriptions.issued + 1), [], r') ∧
        r'.bus.subscriptions.entries = r.bus.subscriptions.entries ++
          [⟨r.bus.subscriptions.issued + 1, filter, qos, r.listeners.length⟩] ∧
        r'.listeners = r.listeners ++ [⟨label, script, runs⟩]) ∧
      (¬ r.Admits filter →
        ∃ f, r.perform (.subscribe filter qos label script runs) = (.failed f, [], r))) ∧
    -- taking one back leaves the others in order
    (∀ id, ∃ r', r.perform (.unsubscribe id) = (.done, [], r') ∧
      (id ∉ r.bus.subscriptions.ids → r' = r) ∧
      ∀ before e after, r.bus.subscriptions.entries = before ++ e :: after → e.id = id →
        r'.bus.subscriptions.entries = before ++ after) ∧
    -- messages that are refused, and those that are not
    (∀ m, ¬ r.Takes m → ∃ f r', r.perform (.publish m) = (.failed f, [], r') ∧
      r'.bus.subscriptions = r.bus.subscriptions ∧ r'.bus.log = r.bus.log ∧
      r'.listeners = r.listeners ∧ r'.notes = r.notes) ∧
    (∀ m, r.Takes m → ∃ ds r', r.perform (.publish m) = (.done, ds, r') ∧
      r'.bus.subscriptions = r.bus.subscriptions ∧ r'.listeners = r.listeners ∧
      r'.notes = r.notes ∧
      List.Forall₂ (fun e d => d.IsFor m e)
        (r.bus.subscriptions.entries.filter fun e => isMatch e.filter m.topic) ds ∧
      (∀ more, r'.work (handOver ds ++ more) = (ds.foldl hand r').work more) ∧
      (r.IsQuiet → (ds.foldl hand r').received =
        r.received ++ ds.map fun d => (r.labelOf d.receiver, d.message))) := by
  have hempty : IsOrderly [] { bus := { capacity } } :=
    ⟨rfl, List.Sublist.refl [], List.Sublist.refl []⟩
  have horderly : r.IsOrderly history := h.isOrderly hempty
  refine ⟨horderly, fun filter qos label script runs => ⟨fun hadmits => ?_, fun hadmits =>
    r.perform_subscribe_of_not_admits hadmits qos label script runs⟩, fun id => ?_,
    fun m htakes => ?_, fun m htakes => ?_⟩
  · exact ⟨_, r.perform_subscribe_of_admits hadmits qos label script runs, rfl, rfl⟩
  · refine ⟨_, rfl, fun hid => ?_, fun before e after hentries hid => ?_⟩
    · show { r with bus := { r.bus with subscriptions := r.bus.subscriptions.remove id } } = r
      rw [Subscriptions.remove_of_not_mem hid]
    · subst hid
      exact horderly.numbered.entries_remove hentries
  · obtain ⟨f, refusals, heq⟩ := r.perform_publish_of_not_takes htakes
    exact ⟨f, _, heq, rfl, rfl, rfl, rfl⟩
  · refine ⟨_, _, r.perform_publish_of_takes htakes, subscriptions_record .., rfl, rfl,
      forall₂_deliveries _ _, fun more => work_handOver _ _ _, fun hquiet => ?_⟩
    exact received_foldl_hand { r with bus := r.bus.record m } hquiet (horderly.isCalm m)

def crowd : Room :=
  [Act.subscribe "a/#" .atLeastOnce "first"
      [.unsubscribe 3, .subscribe "a/b" .exactlyOnce "late" [] 0] 1,
    .subscribe "c/+" .exactlyOnce "second" [] 0,
    .subscribe "a/+" .exactlyOnce "third" [] 0].foldl (fun r act => (r.perform act).2.2)
      { bus := { capacity := 4 } }

lemma reaches_crowd : ∃ history, Reaches { bus := { capacity := 4 } } history crowd [] :=
  ⟨_, ((Reaches.start.order (.subscribe "a/#" .atLeastOnce "first"
      [.unsubscribe 3, .subscribe "a/b" .exactlyOnce "late" [] 0] 1)).order
    (.subscribe "c/+" .exactlyOnce "second" [] 0)).order
    (.subscribe "a/+" .exactlyOnce "third" [] 0)⟩

/-- A listener that is removed while the message is handed over still receives it, and one that is
added does not. -/
theorem delivery_is_exact_to_crowd :
    ∃ history ds r', Reaches { bus := { capacity := 4 } } history crowd [] ∧
      crowd.perform (.publish ⟨"a/b", [1], .exactlyOnce⟩) = (.done, ds, r') ∧
      (ds.foldl hand r').received =
        [("first", ⟨"a/b", [1], .atLeastOnce⟩), ("third", ⟨"a/b", [1], .exactlyOnce⟩)] ∧
      (ds.foldl hand r').bus.subscriptions.ids = [1, 2, 4] := by
  obtain ⟨history, hreach⟩ := reaches_crowd
  have htakes : crowd.Takes ⟨"a/b", [1], .exactlyOnce⟩ :=
    ⟨by decide +kernel, by decide +kernel, by decide +kernel⟩
  have hquiet : crowd.IsQuiet := by
    unfold IsQuiet
    decide +kernel
  obtain ⟨-, -, -, -, htaken⟩ := delivery_is_exact hreach
  obtain ⟨ds, r', heq, -, -, -, -, hwork, hreceived⟩ := htaken _ htakes
  have hds : (crowd.perform (.publish ⟨"a/b", [1], .exactlyOnce⟩)).2.1 = ds := by rw [heq]
  have hr' : (crowd.perform (.publish ⟨"a/b", [1], .exactlyOnce⟩)).2.2 = r' := by rw [heq]
  refine ⟨history, ds, r', hreach, heq, ?_, ?_⟩
  · rw [hreceived hquiet, ← hds]
    decide +kernel
  · have hids : (crowd.run (.publish ⟨"a/b", [1], .exactlyOnce⟩)).2.bus.subscriptions.ids =
        [1, 2, 4] := by cbv
    have hrun : (crowd.run (.publish ⟨"a/b", [1], .exactlyOnce⟩)).2 = ds.foldl hand r' := by
      have hall := hwork []
      rw [List.append_nil, Room.work.eq_1] at hall
      rw [← hall, ← hds, ← hr']
      rfl
    rw [← hrun, hids]

end Room

end VoiceTurn.Bus
