import Mathlib.Data.List.Nodup
import Mathlib.Tactic.Lemma
import Mathlib.Tactic.SplitIfs
import VoiceTurn.Bus.Listener

/-!
# Exact delivery

Whatever is done to a bus within the process, also by its listeners while a message is being handed
to them, the numbers in force are some of those that have been issued, in the order of issue
(`Subscriptions.IsNumbered`), and no two of them belong to one listener (`Room.IsOrderly`). The
receivers of a message are therefore settled when the bus takes it: its deliveries are handed over
one after the other, each with all that its listener does, and what the listeners do to the table
changes none of them (`Room.work_handOver`).
-/

namespace VoiceTurn.Bus

open Topic (isFilter isPublishable)

/-! ## The table -/

namespace Subscriptions

variable {ρ : Type} {t : Subscriptions ρ}

/-- The numbers of the `entries`, oldest first. -/
def ids (t : Subscriptions ρ) : List Nat := t.entries.map (·.id)

/-- The `ids` are some of the numbers that have been issued, in the order of issue. -/
def IsNumbered (t : Subscriptions ρ) : Prop := t.ids.Sublist (List.range' 1 t.issued)

lemma IsNumbered.remove (h : t.IsNumbered) (id : Nat) : (t.remove id).IsNumbered :=
  (List.filter_sublist.map _).trans h

lemma IsNumbered.nodup (h : t.IsNumbered) : t.ids.Nodup := List.Nodup.sublist h List.nodup_range'

lemma IsNumbered.append (h : t.IsNumbered) (filter : String) (qos : Qos) (receiver : ρ) :
    IsNumbered ⟨t.entries ++ [⟨t.issued + 1, filter, qos, receiver⟩], t.issued + 1⟩ := by
  have hnumbers : List.range' 1 (t.issued + 1) = List.range' 1 t.issued ++ [t.issued + 1] := by
    rw [List.range'_1_concat, Nat.add_comm 1]
  unfold IsNumbered ids
  rw [hnumbers, List.map_append]
  exact List.Sublist.append h (List.Sublist.refl _)

lemma remove_of_not_mem {id : Nat} (h : id ∉ t.ids) : t.remove id = t := by
  have hentries : t.entries.filter (·.id ≠ id) = t.entries := by
    rw [List.filter_eq_self]
    intro e he
    rw [decide_eq_true_iff]
    rintro rfl
    exact h (List.mem_map_of_mem he)
  rw [remove, hentries]

/-- A `remove` takes the entry of its number out, and no other one. -/
lemma IsNumbered.entries_remove (h : t.IsNumbered) {before after : List (Subscription ρ)}
    {e : Subscription ρ} (hentries : t.entries = before ++ e :: after) :
    (t.remove e.id).entries = before ++ after := by
  have hnodup := h.nodup
  rw [ids, hentries, List.map_append, List.map_cons] at hnodup
  obtain ⟨-, hafter, hdisjoint⟩ := List.nodup_append.1 hnodup
  have hkept (es : List (Subscription ρ)) (hes : ∀ x ∈ es, x.id ≠ e.id) :
      es.filter (·.id ≠ e.id) = es :=
    List.filter_eq_self.2 fun x hx => decide_eq_true (hes x hx)
  have hbefore : ∀ x ∈ before, x.id ≠ e.id := fun x hx =>
    hdisjoint _ (List.mem_map_of_mem hx) _ List.mem_cons_self
  have hafter' : ∀ x ∈ after, x.id ≠ e.id := fun x hx heq =>
    (List.nodup_cons.1 hafter).1 (heq ▸ List.mem_map_of_mem hx)
  show t.entries.filter (·.id ≠ e.id) = _
  rw [hentries, List.filter_append, hkept before hbefore, List.filter_cons_of_neg (by simp),
    hkept after hafter']

end Subscriptions

/-! ## Operations -/

namespace Room

def Admits (r : Room) (filter : String) : Prop :=
  r.bus.isClosed = false ∧ isFilter filter = true

def Takes (r : Room) (m : Message) : Prop :=
  r.bus.isClosed = false ∧ isPublishable m.topic = true ∧ r.bus.refusals = 0

variable (r : Room)

/-- A subscription that the bus `Admits` takes the next number, for a new listener. -/
lemma perform_subscribe_of_admits {filter : String} (h : r.Admits filter) (qos : Qos)
    (label : String) (script : List Act) (runs : Nat) :
    r.perform (.subscribe filter qos label script runs) =
      (.subscribed (r.bus.subscriptions.issued + 1), [], { r with
        bus := { r.bus with subscriptions := ⟨r.bus.subscriptions.entries ++
          [⟨r.bus.subscriptions.issued + 1, filter, qos, r.listeners.length⟩],
          r.bus.subscriptions.issued + 1⟩ }
        listeners := r.listeners ++ [⟨label, script, runs⟩] }) := by
  obtain ⟨hopen, hfilter⟩ := h
  simp only [perform, Local.subscribe, hopen, Subscriptions.add, hfilter]
  rfl

/-- A subscription that the bus does not admit (`Admits`) changes nothing. -/
lemma perform_subscribe_of_not_admits {filter : String} (h : ¬ r.Admits filter) (qos : Qos)
    (label : String) (script : List Act) (runs : Nat) :
    ∃ f, r.perform (.subscribe filter qos label script runs) = (.failed f, [], r) := by
  simp only [perform, Local.subscribe, Subscriptions.add]
  cases hopen : r.bus.isClosed with
  | true => exact ⟨_, rfl⟩
  | false =>
    cases hfilter : isFilter filter with
    | true => exact absurd ⟨hopen, hfilter⟩ h
    | false => exact ⟨_, rfl⟩

/-- A message that a bus `Takes` is to be delivered to the receivers that match. -/
lemma perform_publish_of_takes {m : Message} (h : r.Takes m) :
    r.perform (.publish m) =
      (.done, r.bus.subscriptions.deliveries m, { r with bus := r.bus.record m }) := by
  obtain ⟨hopen, htopic, hrefusals⟩ := h
  simp only [perform, Local.publish, hopen, htopic, hrefusals]
  rfl

/-- Any other message is delivered to nobody, and at most an ordered refusal is used up. -/
lemma perform_publish_of_not_takes {m : Message} (h : ¬ r.Takes m) :
    ∃ f refusals, r.perform (.publish m) =
      (.failed f, [], { r with bus := { r.bus with refusals } }) := by
  simp only [perform, Local.publish]
  split_ifs with hclosed htopic
  · exact ⟨_, r.bus.refusals, rfl⟩
  · exact ⟨_, r.bus.refusals, rfl⟩
  · cases hrefusals : r.bus.refusals with
    | succ n => exact ⟨_, n, rfl⟩
    | zero => exact absurd ⟨by simpa using hclosed, by simpa using htopic, hrefusals⟩ h

lemma subscriptions_record (b : Local Nat) (m : Message) :
    (b.record m).subscriptions = b.subscriptions := by
  unfold Local.record
  split <;> rfl

/-! ## Runs -/

def handOver (ds : List (Delivery Nat)) : List Task :=
  ds.map fun d => .deliver d.receiver d.message

def actsOf (r : Room) : Task → List (Act × Reply)
  | .perform _ act => [(act, (r.perform act).1)]
  | .deliver .. | .note .. => []

/-- Where a bus can be, with the operations that have been carried out and the tasks that are left:
an operation is ordered when no task is left, and then the tasks are carried out one by one. -/
inductive Reaches (start : Room) : List (Act × Reply) → Room → List Task → Prop where
  | start : Reaches start [] start []
  | order {history : List (Act × Reply)} {r : Room} (act : Act) (h : Reaches start history r []) :
      Reaches start (history ++ [(act, (r.perform act).1)]) (r.perform act).2.2
        (handOver (r.perform act).2.1)
  | step {history : List (Act × Reply)} {r : Room} {t : Task} {tasks : List Task}
      (h : Reaches start history r (t :: tasks)) :
      Reaches start (history ++ r.actsOf t) (r.step t tasks).2 (r.step t tasks).1

/-- A `work` is one of the things that can happen. -/
lemma Reaches.work {start r : Room} {history : List (Act × Reply)} {tasks : List Task}
    (h : start.Reaches history r tasks) :
    ∃ more, start.Reaches (history ++ more) (r.work tasks) [] := by
  induction r, tasks using Room.work.induct generalizing history with
  | case1 r => exact ⟨[], by rwa [List.append_nil, Room.work]⟩
  | case2 r t tasks ih =>
    obtain ⟨more, hmore⟩ := ih h.step
    rw [List.append_assoc] at hmore
    exact ⟨_, by rwa [Room.work]⟩

/-- A `run` is one of the things that can happen. -/
lemma Reaches.run {start r : Room} {history : List (Act × Reply)}
    (h : start.Reaches history r []) (act : Act) :
    ∃ more, start.Reaches (history ++ more) (r.run act).2 [] := by
  obtain ⟨more, hmore⟩ := (h.order act).work
  rw [List.append_assoc] at hmore
  exact ⟨_, hmore⟩

/-- The number that a `subscribed` gives out. -/
def issued? : Act × Reply → Option Nat
  | (_, .subscribed id) => some id
  | _ => none

/-- The numbers given out so far count up from one, those in force are in order, and the listeners
behind them are different ones. -/
structure IsOrderly (history : List (Act × Reply)) (r : Room) : Prop where
  issued : history.filterMap issued? = List.range' 1 r.bus.subscriptions.issued
  numbered : r.bus.subscriptions.IsNumbered
  receivers : (r.bus.subscriptions.entries.map (·.receiver)).Sublist
    (List.range r.listeners.length)

namespace IsOrderly

variable {r : Room} {history : List (Act × Reply)}

lemma keep (h : r.IsOrderly history) {r' : Room}
    (htable : r'.bus.subscriptions = r.bus.subscriptions)
    (hlisteners : r'.listeners.length = r.listeners.length) {more : List (Act × Reply)}
    (hmore : more.filterMap issued? = []) : r'.IsOrderly (history ++ more) where
  issued := by rw [List.filterMap_append, hmore, List.append_nil, htable, h.issued]
  numbered := by rw [htable]; exact h.numbered
  receivers := by rw [htable, hlisteners]; exact h.receivers

/-- Every `perform` keeps the order. -/
lemma perform (h : r.IsOrderly history) (act : Act) :
    (r.perform act).2.2.IsOrderly (history ++ [(act, (r.perform act).1)]) := by
  cases act with
  | subscribe filter qos label script runs =>
    by_cases hadmits : r.Admits filter
    · rw [r.perform_subscribe_of_admits hadmits]
      refine ⟨?_, h.numbered.append _ _ _, ?_⟩
      · rw [List.filterMap_append, h.issued, List.range'_1_concat, Nat.add_comm 1]
        rfl
      · rw [List.length_append, List.length_singleton, List.range_succ, List.map_append]
        exact List.Sublist.append h.receivers (List.Sublist.refl _)
    · obtain ⟨f, heq⟩ := r.perform_subscribe_of_not_admits hadmits qos label script runs
      rw [heq]
      exact h.keep rfl rfl rfl
  | unsubscribe id =>
    refine ⟨?_, h.numbered.remove id, (List.filter_sublist.map _).trans h.receivers⟩
    rw [List.filterMap_append, h.issued]
    exact List.append_nil _
  | publish m =>
    by_cases htakes : r.Takes m
    · rw [r.perform_publish_of_takes htakes]
      refine h.keep ?_ ?_ ?_
      · exact subscriptions_record ..
      · rfl
      · rfl
    · obtain ⟨f, refusals, heq⟩ := r.perform_publish_of_not_takes htakes
      rw [heq]
      refine h.keep ?_ ?_ ?_ <;> rfl
  | refuseNext | close | readLog | readName => refine h.keep ?_ ?_ ?_ <;> rfl

end IsOrderly

/-- Everything that `receive` can do: note the message, and begin the script of the listener when it
has runs left. -/
lemma receive_cases {index : Nat} {l : Listener} (h : r.listeners[index]? = some l) (m : Message) :
    r.receive index m = ([], { r with notes := .received l.label m :: r.notes }) ∨
    ∃ runs, r.receive index m = (l.script.map (Task.perform l.label),
      { r with
        listeners := r.listeners.set index { l with runs }
        notes := .received l.label m :: r.notes }) := by
  unfold receive
  rw [h]
  cases hruns : l.runs with
  | zero => exact .inl (by simp only [hruns])
  | succ runs => exact .inr ⟨runs, by simp only [hruns]⟩

lemma length_listeners_receive (index : Nat) (m : Message) :
    (r.receive index m).2.listeners.length = r.listeners.length := by
  unfold receive
  split
  · rfl
  · split
    · rfl
    · exact List.length_set

lemma bus_receive (index : Nat) (m : Message) : (r.receive index m).2.bus = r.bus := by
  unfold receive
  split
  · rfl
  · split <;> rfl

/-- Wherever a bus can be, it `IsOrderly`. -/
lemma Reaches.isOrderly {start : Room} (hstart : start.IsOrderly [])
    {history : List (Act × Reply)} {r : Room} {tasks : List Task}
    (h : start.Reaches history r tasks) : r.IsOrderly history := by
  induction h with
  | start => exact hstart
  | order act _ ih => exact ih.perform act
  | @step history r t tasks _ ih =>
    cases t with
    | deliver index m =>
      refine ih.keep ?_ (r.length_listeners_receive index m) rfl
      show (r.receive index m).2.bus.subscriptions = _
      rw [r.bus_receive]
    | perform label act => exact ih.perform act
    | note label reply => refine ih.keep ?_ ?_ ?_ <;> rfl

/-! ## Handing over -/

lemma step_append (t : Task) (tasks more : List Task) :
    r.step t (tasks ++ more) = ((r.step t tasks).1 ++ more, (r.step t tasks).2) := by
  cases t <;> simp [step]

lemma work_append (tasks more : List Task) :
    r.work (tasks ++ more) = (r.work tasks).work more := by
  induction r, tasks using Room.work.induct with
  | case1 r => rw [List.nil_append, Room.work]
  | case2 r t tasks ih =>
    rw [List.cons_append, Room.work, step_append, ih, Room.work]

/-- Hands a message to its receiver, with all that the receiver does then (`work`). -/
def hand (r : Room) (d : Delivery Nat) : Room :=
  (r.receive d.receiver d.message).2.work (r.receive d.receiver d.message).1

/-- Each delivery is a `hand`, in order, and then comes what is left to do besides. -/
lemma work_handOver (ds : List (Delivery Nat)) (more : List Task) :
    r.work (handOver ds ++ more) = (ds.foldl hand r).work more := by
  induction ds generalizing r with
  | nil => rfl
  | cons d ds ih =>
    have hcons : handOver (d :: ds) ++ more =
        .deliver d.receiver d.message :: (handOver ds ++ more) := rfl
    rw [hcons, Room.work, List.foldl_cons, ← ih]
    exact work_append _ _ _

end Room

end VoiceTurn.Bus
