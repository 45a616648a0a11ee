import Mathlib.Tactic.Lemma
import Mathlib.Tactic.SplitIfs
import VoiceTurn.Bus.Access
import VoiceTurn.Proofs.Bus.Dispatch

/-!
# Calls on a bus

Subscribing and unsubscribing change the table of a bus and nothing else, so a bus is described by
what it was before and its new table (`Carrier.withSubscriptions`). Several subscriptions that are
made together take the next numbers in order (`Access.subscribeAll_of_open`). However a series of
calls goes, it leaves some of the entries that were asked for, and takes out none but those of the
numbers that it was given or has made (`Access.subscribeAll_spec`, `Access.unsubscribeAll_spec`).
-/

namespace VoiceTurn.Bus

open Topic (isFilter)

variable {ρ : Type}

/-! ## The table -/

namespace Subscriptions

def grant (t : Subscriptions ρ) (q : Request ρ) : Subscriptions ρ :=
  ⟨t.entries ++ [⟨t.issued + 1, q.filter, q.qos, q.receiver⟩], t.issued + 1⟩

/-- Repeated `grant`. -/
def grantAll (t : Subscriptions ρ) (requests : List (Request ρ)) : Subscriptions ρ :=
  requests.foldl grant t

/-- Repeated `remove`. -/
def removeAll (t : Subscriptions ρ) (ids : List Nat) : Subscriptions ρ :=
  { t with entries := t.entries.filter (·.id ∉ ids) }

variable {t : Subscriptions ρ}

@[simp] lemma removeAll_nil (t : Subscriptions ρ) : t.removeAll [] = t := by simp [removeAll]

lemma removeAll_remove (t : Subscriptions ρ) (id : Nat) (ids : List Nat) :
    (t.remove id).removeAll ids = t.removeAll (id :: ids) := by
  simp [removeAll, remove, List.filter_filter, Bool.and_comm]

lemma mem_removeAll {e : Subscription ρ} {ids : List Nat} :
    e ∈ (t.removeAll ids).entries ↔ e ∈ t.entries ∧ e.id ∉ ids := by
  simp [removeAll]

/-- The entries that `grantAll` adds, under the next numbers. -/
def granted (t : Subscriptions ρ) (requests : List (Request ρ)) : List (Subscription ρ) :=
  requests.zipIdx.map fun p => ⟨t.issued + 1 + p.2, p.1.filter, p.1.qos, p.1.receiver⟩

/-- What `grantAll` adds comes behind what was there. -/
lemma entries_grantAll (t : Subscriptions ρ) (requests : List (Request ρ)) :
    (t.grantAll requests).entries = t.entries ++ t.granted requests := by
  induction requests generalizing t with
  | nil => simp [grantAll, granted]
  | cons q requests ih =>
    refine (ih (t.grant q)).trans ?_
    rw [granted, granted, List.zipIdx_cons', List.map_cons, List.map_map]
    refine (List.append_assoc ..).trans (congrArg (t.entries ++ ·) (congrArg _ ?_))
    refine List.map_congr_left fun p _ => ?_
    have hnumber : (t.grant q).issued + 1 + p.2 = t.issued + 1 + (p.2 + 1) := by
      have hstep : (t.grant q).issued = t.issued + 1 := rfl
      omega
    simp only [hnumber]
    rfl

section
variable (t) (requests : List (Request ρ))

lemma requests_granted :
    (t.granted requests).map (fun e => (⟨e.filter, e.qos, e.receiver⟩ : Request ρ)) = requests := by
  rw [granted, List.map_map]
  exact List.zipIdx_map_fst 0 requests

lemma ids_granted :
    (t.granted requests).map (·.id) = List.range' (t.issued + 1) requests.length := by
  have hnumbers : (List.range' 0 requests.length).map (t.issued + 1 + ·) =
      List.range' (t.issued + 1) requests.length := List.map_add_range' 0 requests.length 1
  rw [← List.zipIdx_map_snd 0 requests, List.map_map] at hnumbers
  rw [granted, List.map_map]
  exact hnumbers

lemma issued_grantAll : (t.grantAll requests).issued = t.issued + requests.length := by
  induction requests generalizing t with
  | nil => rfl
  | cons q requests ih =>
    refine (ih (t.grant q)).trans ?_
    show t.issued + 1 + requests.length = t.issued + (requests.length + 1)
    omega

end

lemma request_mem_of_mem_granted {requests : List (Request ρ)} {e : Subscription ρ}
    (he : e ∈ t.granted requests) : ⟨e.filter, e.qos, e.receiver⟩ ∈ requests := by
  have hmem : (⟨e.filter, e.qos, e.receiver⟩ : Request ρ) ∈
      (t.granted requests).map fun e => ⟨e.filter, e.qos, e.receiver⟩ := List.mem_map_of_mem he
  rwa [requests_granted] at hmem

/-- An entry of `grantAll` that is new is for one of the requests, and has one of the next
numbers. -/
lemma exists_of_mem_grantAll {requests : List (Request ρ)} {e : Subscription ρ}
    (he : e ∈ (t.grantAll requests).entries) :
    e ∈ t.entries ∨ (⟨e.filter, e.qos, e.receiver⟩ ∈ requests ∧
      t.issued < e.id ∧ e.id ≤ t.issued + requests.length) := by
  rw [entries_grantAll] at he
  rcases List.mem_append.1 he with he | he
  · exact .inl he
  · have hid : e.id ∈ (t.granted requests).map (·.id) := List.mem_map_of_mem he
    rw [ids_granted, List.mem_range'_1] at hid
    exact .inr ⟨request_mem_of_mem_granted he, by omega, by omega⟩

lemma grantAll_append (t : Subscriptions ρ) (requests requests' : List (Request ρ)) :
    (t.grantAll requests).grantAll requests' = t.grantAll (requests ++ requests') :=
  List.foldl_append.symm

lemma IsNumbered.grantAll (h : t.IsNumbered) (requests : List (Request ρ)) :
    (t.grantAll requests).IsNumbered := by
  induction requests generalizing t with
  | nil => exact h
  | cons q requests ih => exact ih (h.append q.filter q.qos q.receiver)

lemma IsNumbered.removeAll (h : t.IsNumbered) (ids : List Nat) : (t.removeAll ids).IsNumbered :=
  (List.filter_sublist.map _).trans h

/-- No number above `issued` is in force. -/
lemma IsNumbered.id_le (h : t.IsNumbered) {e : Subscription ρ} (he : e ∈ t.entries) :
    e.id ≤ t.issued := by
  have hmem := h.subset (List.mem_map_of_mem he)
  rw [List.mem_range'_1] at hmem
  omega

end Subscriptions

/-! ## The bus -/

namespace Carrier

def isClosed : Carrier ρ → Bool
  | inProcess b => b.isClosed
  | link l => l.isClosed

def withSubscriptions (c : Carrier ρ) (t : Subscriptions ρ) : Carrier ρ :=
  match c with
  | .inProcess b => .inProcess { b with subscriptions := t }
  | .link l => .link { l with subscriptions := t }

section
variable (c : Carrier ρ) (t : Subscriptions ρ)

@[simp] lemma subscriptions_withSubscriptions : (c.withSubscriptions t).subscriptions = t := by
  cases c <;> rfl

@[simp] lemma isClosed_withSubscriptions : (c.withSubscriptions t).isClosed = c.isClosed := by
  cases c <;> rfl

@[simp] lemma withSubscriptions_subscriptions : c.withSubscriptions c.subscriptions = c := by
  cases c <;> rfl

@[simp] lemma withSubscriptions_withSubscriptions (t' : Subscriptions ρ) :
    (c.withSubscriptions t).withSubscriptions t' = c.withSubscriptions t' := by
  cases c <;> rfl

lemma unsubscribe_eq (id : Nat) :
    c.unsubscribe id = c.withSubscriptions (c.subscriptions.remove id) := by
  cases c <;> rfl

end

lemma withSubscriptions_of_eq {c c' : Carrier ρ}
    (h : c.withSubscriptions {} = c'.withSubscriptions {}) :
    c.withSubscriptions c'.subscriptions = c' := by
  simpa using congrArg (·.withSubscriptions c'.subscriptions) h

variable {c : Carrier ρ}

/-- Everything that `subscribe` can do: take the next number as long as the bus is open and the
request has a filter, or be refused. -/
lemma subscribe_eq (c : Carrier ρ) (q : Request ρ) :
    ∃ unavailable : Failure, ∀ t, (c.withSubscriptions t).subscribe q.filter q.qos q.receiver =
      if c.isClosed then (.error unavailable, c.withSubscriptions t)
      else if isFilter q.filter then (.ok (t.issued + 1), c.withSubscriptions (t.grant q))
      else (.error (.invalidTopic q.filter), c.withSubscriptions t) := by
  cases c with
  | inProcess b =>
    obtain ⟨_, _, _, _, hasClosed⟩ := b
    refine ⟨.closed, fun t => ?_⟩
    simp only [withSubscriptions, subscribe, Local.subscribe, isClosed, Subscriptions.add]
    cases hasClosed
    · cases isFilter q.filter <;> rfl
    · rfl
  | link l =>
    refine ⟨.subscribe q.filter "input stream has ended", fun t => ?_⟩
    obtain ⟨_, _, _, reader, _, _, _⟩ := l
    simp only [withSubscriptions, subscribe, Line.Link.subscribe, Line.Link.isClosed, isClosed,
      Subscriptions.add]
    cases reader with
    | finished => rfl
    | unstarted | reading => cases isFilter q.filter <;> rfl

/-- The messages that `publish` hands over: this one, if the bus hands it over at once. -/
def passedOn (c : Carrier ρ) (m : Message) : List Message :=
  match c with
  | .inProcess b => if (b.publish m).1.isOk then [m] else []
  | .link _ => []

/-- The messages in what has arrived on a link, as far as `canRead`. -/
def arriving : Carrier ρ → List Message
  | .inProcess _ => []
  | .link l =>
    match l.canRead, l.reader with
    | true, .reading framer =>
      if Line.Framer.capacity l.limit = 0 then []
      else
        let (frames, framer) := framer.feed l.limit l.intake.arrived
        match l.intake.ending with
        | some .complete => (frames ++ framer.finish.toList).filterMap Line.Link.messageOf?
        | some .broken | none => frames.filterMap Line.Link.messageOf?
    | _, _ => []

/-- What `publish` answers, and what becomes of the bus, does not hang on its table, which only says
to whom the message is handed over. -/
lemma publish_cases (c : Carrier ρ) (m : Message) :
    ∃ c' : Carrier ρ, (∃ f, ∀ t, (c.withSubscriptions t).publish m =
        (.error f, c'.withSubscriptions t) ∧ (c.withSubscriptions t).passedOn m = []) ∨
      ∃ ms, ∀ t, (c.withSubscriptions t).publish m =
        (.ok (ms.flatMap t.deliveries), c'.withSubscriptions t) ∧
          (c.withSubscriptions t).passedOn m = ms := by
  cases c with
  | inProcess b =>
    obtain ⟨_, log, capacity, refusals, hasClosed⟩ := b
    simp only [withSubscriptions, publish, passedOn, Local.publish]
    cases hasClosed with
    | true => exact ⟨.inProcess { log, capacity, refusals, isClosed := true }, .inl ⟨_, fun t =>
        ⟨rfl, rfl⟩⟩⟩
    | false =>
      cases Topic.isPublishable m.topic with
      | false => exact ⟨.inProcess { log, capacity, refusals }, .inl ⟨_, fun t => ⟨rfl, rfl⟩⟩⟩
      | true =>
        cases refusals with
        | succ n => exact ⟨.inProcess { log, capacity, refusals := n }, .inl ⟨_, fun t =>
            ⟨rfl, rfl⟩⟩⟩
        | zero =>
          refine ⟨.inProcess (Local.record { log, capacity } m), .inr ⟨[m], fun t => ⟨?_, rfl⟩⟩⟩
          rw [List.flatMap_singleton]
          by_cases hcapacity : capacity = 0
          · simp [Local.record, hcapacity]
          · simp [Local.record, hcapacity]
  | link l =>
    have hpublish (t : Subscriptions ρ) : (link { l with subscriptions := t }).publish m =
        ((l.publish m).1.map fun _ => [],
          .link { (l.publish m).2 with subscriptions := t }) := by
      have hwriting : Line.Link.nextWriting { l with subscriptions := t } = l.nextWriting := rfl
      simp only [publish, Line.Link.publish, Line.Link.publishTo, hwriting]
      cases Line.write m.topic m.payload with
      | error f => rfl
      | ok line => cases l.nextWriting <;> rfl
    refine ⟨.link (l.publish m).2, ?_⟩
    cases hresult : (l.publish m).1 with
    | error f =>
      refine .inl ⟨f, fun t => ⟨(hpublish t).trans ?_, rfl⟩⟩
      rw [hresult]
      rfl
    | ok u =>
      -- a link hands nothing over itself: what it sends may come back with what arrives
      refine .inr ⟨[], fun t => ⟨(hpublish t).trans ?_, rfl⟩⟩
      rw [hresult]
      rfl

@[simp] lemma passedOn_withSubscriptions (c : Carrier ρ) (t : Subscriptions ρ) (m : Message) :
    (c.withSubscriptions t).passedOn m = c.passedOn m := by
  obtain ⟨_, ⟨f, hrefused⟩ | ⟨ms, htaken⟩⟩ := c.publish_cases m
  · have hself := (hrefused c.subscriptions).2
    rw [withSubscriptions_subscriptions] at hself
    rw [(hrefused t).2, hself]
  · have hself := (htaken c.subscriptions).2
    rw [withSubscriptions_subscriptions] at hself
    rw [(htaken t).2, hself]

lemma passedOn_cases (c : Carrier ρ) (m : Message) : c.passedOn m = [] ∨ c.passedOn m = [m] := by
  cases c with
  | link l => exact .inl rfl
  | inProcess b =>
    simp only [passedOn]
    split_ifs
    · exact .inr rfl
    · exact .inl rfl

/-- A `publish` leaves the table as it is. -/
lemma publish_eq (c : Carrier ρ) (m : Message) :
    ∃ c' : Carrier ρ, c'.subscriptions = c.subscriptions ∧
      ((∃ f, c.publish m = (.error f, c') ∧ c.passedOn m = []) ∨
        c.publish m = (.ok ((c.passedOn m).flatMap c.subscriptions.deliveries), c')) := by
  obtain ⟨c', ⟨f, hrefused⟩ | ⟨ms, htaken⟩⟩ := c.publish_cases m
  · have hself := hrefused c.subscriptions
    rw [withSubscriptions_subscriptions] at hself
    exact ⟨_, subscriptions_withSubscriptions .., .inl ⟨f, hself⟩⟩
  · have hself := htaken c.subscriptions
    rw [withSubscriptions_subscriptions] at hself
    obtain ⟨hpublish, rfl⟩ := hself
    exact ⟨_, subscriptions_withSubscriptions .., .inr hpublish⟩

/-- What has arrived on a bus does not hang on its table either. -/
lemma readArrived?_cases (c : Carrier ρ) :
    (c.arriving = [] ∧ ∀ t, (c.withSubscriptions t).readArrived? = none) ∨
      ∃ c' : Carrier ρ, ∀ t, (c.withSubscriptions t).readArrived? =
        some (c.arriving.flatMap t.deliveries, c'.withSubscriptions t) := by
  cases c with
  | inProcess b => exact .inl ⟨rfl, fun _ => rfl⟩
  | link l =>
    by_cases hcan : l.canRead = true
    · have hread (t : Subscriptions ρ) : Line.Link.readArrived { l with subscriptions := t } =
          ((link l).arriving.flatMap t.deliveries,
            { l.readArrived.2 with subscriptions := t }) := by
        simp only [arriving, hcan]
        obtain ⟨_, limit, ⟨arrived, ending⟩, reader, _, _, _⟩ := l
        cases reader with
        | unstarted | finished => rfl
        | reading framer =>
          simp only [Line.Link.readArrived]
          by_cases hcapacity : Line.Framer.capacity limit = 0
          · simp only [if_pos hcapacity]
            rfl
          · simp only [if_neg hcapacity]
            cases ending with
            | none => rfl
            | some ending => cases ending <;> rfl
      exact .inr ⟨.link l.readArrived.2, fun t =>
        (if_pos hcan).trans (congrArg (fun read => some (read.1, link read.2)) (hread t))⟩
    · refine .inl ⟨?_, fun t => if_neg hcan⟩
      simp only [arriving, Bool.not_eq_true _ ▸ hcan]

/-- Only a link is read, and only when it `canRead`. -/
lemma exists_link_of_readArrived? {c c' : Carrier ρ} {ds : List (Delivery ρ)}
    (h : c.readArrived? = some (ds, c')) :
    ∃ l : Line.Link ρ, c = .link l ∧ l.canRead = true ∧ c' = .link l.readArrived.2 := by
  cases c with
  | inProcess b => cases h
  | link l =>
    simp only [readArrived?] at h
    split_ifs at h with hcan
    exact ⟨l, rfl, hcan, (Prod.mk.inj (Option.some.inj h)).2.symm⟩

/-- A `readArrived?` leaves the table as it is. -/
lemma readArrived?_eq (c : Carrier ρ) :
    (c.arriving = [] ∧ c.readArrived? = none) ∨
      ∃ c' : Carrier ρ, c'.subscriptions = c.subscriptions ∧
        c.readArrived? = some (c.arriving.flatMap c.subscriptions.deliveries, c') := by
  rcases c.readArrived?_cases with ⟨hnothing, hnone⟩ | ⟨c', hread⟩
  · have hself := hnone c.subscriptions
    rw [withSubscriptions_subscriptions] at hself
    exact .inl ⟨hnothing, hself⟩
  · have hself := hread c.subscriptions
    rw [withSubscriptions_subscriptions] at hself
    exact .inr ⟨_, subscriptions_withSubscriptions .., hself⟩

end Carrier

/-! ## What comes from outside -/

/-- What comes to a bus from outside, beside the calls of those who share it. -/
inductive Influence where
  | arrive (bytes : Bytes)
  | endInput (ending : Line.Ending)
  | startReader
  /-- The output of a link refuses that many lines, and takes that many without passing them on. -/
  | breakOutput (writes flushes : Nat)
  | refuse (count : Nat)
  | close

/-- The bus after an influence; what has nothing to do with its kind leaves it as it is. -/
def Carrier.undergo (c : Carrier ρ) (i : Influence) : Carrier ρ :=
  match c, i with
  | .link l, .arrive bytes => .link (l.arrive bytes)
  | .link l, .endInput ending => .link { l with intake := l.intake.close ending }
  | .link l, .startReader => .link l.start.2
  | .link l, .breakOutput writes flushes =>
    .link { l with brokenWrites := writes, brokenFlushes := flushes }
  | .inProcess b, .refuse count => .inProcess (b.refuseNext count)
  | .inProcess b, .close => .inProcess b.close
  | c, _ => c

lemma Carrier.undergo_withSubscriptions (c : Carrier ρ) (t : Subscriptions ρ) (i : Influence) :
    (c.withSubscriptions t).undergo i = (c.undergo i).withSubscriptions t := by
  cases c with
  | inProcess b => cases i <;> rfl
  | link l =>
    cases i with
    | startReader =>
      obtain ⟨_, _, _, reader, _, _, _⟩ := l
      cases reader <;> rfl
    | arrive | endInput | breakOutput | refuse | close => rfl

@[simp] lemma Carrier.subscriptions_undergo (c : Carrier ρ) (i : Influence) :
    (c.undergo i).subscriptions = c.subscriptions := by
  have hself := c.undergo_withSubscriptions c.subscriptions i
  rw [Carrier.withSubscriptions_subscriptions] at hself
  rw [hself, Carrier.subscriptions_withSubscriptions]

/-! ## Calls -/

namespace Access

variable {a a' : Access ρ}

/-- No call has been ordered to fail by the `Drill`. -/
def IsReliable (a : Access ρ) : Prop :=
  a.drill.failingSubscribe = 0 ∧ a.drill.failingUnsubscribe = 0

/-- Everything that `Access.subscribe` can do: make the subscription, or be refused. -/
lemma subscribe_cases (a : Access ρ) (q : Request ρ) :
    (∃ drill, a.subscribe q = (.ok (a.carrier.subscriptions.issued + 1),
      ⟨a.carrier.withSubscriptions (a.carrier.subscriptions.grant q), drill⟩) ∧
      (a.IsReliable → IsReliable ⟨a.carrier, drill⟩)) ∨
    ∃ f drill, a.subscribe q = (.error f, ⟨a.carrier, drill⟩) ∧
      (a.IsReliable → IsReliable ⟨a.carrier, drill⟩) := by
  obtain ⟨unavailable, heq⟩ := a.carrier.subscribe_eq q
  have hself := heq a.carrier.subscriptions
  rw [Carrier.withSubscriptions_subscriptions] at hself
  unfold subscribe
  simp only [hself]
  split_ifs
  · exact .inr ⟨_, _, rfl, id⟩
  · exact .inr ⟨_, _, rfl, id⟩
  · exact .inl ⟨_, rfl, id⟩
  · exact .inr ⟨_, _, rfl, id⟩

/-- Everything that `Access.unsubscribe` can do: remove the subscription, or fail. -/
lemma unsubscribe_cases (a : Access ρ) (id : Nat) :
    (∃ drill, a.unsubscribe id =
      (.ok (), ⟨a.carrier.withSubscriptions (a.carrier.subscriptions.remove id), drill⟩) ∧
      (a.IsReliable → IsReliable ⟨a.carrier, drill⟩)) ∨
    (∃ f drill, a.unsubscribe id = (.error f, ⟨a.carrier, drill⟩)) ∧ ¬ a.IsReliable := by
  unfold unsubscribe
  simp only
  split_ifs with hcall
  · exact .inr ⟨⟨_, _, rfl⟩, fun hreliable => by rw [hreliable.2] at hcall; cases hcall⟩
  · rw [Carrier.unsubscribe_eq]
    exact .inl ⟨_, rfl, fun hreliable => hreliable⟩

/-- Whatever becomes of its calls, `unsubscribeAll` takes out none but entries of the given numbers;
when all succeed, it takes out all of these. -/
lemma unsubscribeAll_spec (a : Access ρ) (ids : List Nat) :
    ∃ gone drill, (∀ id ∈ gone, id ∈ ids) ∧
      (a.unsubscribeAll ids).2 =
        ⟨a.carrier.withSubscriptions (a.carrier.subscriptions.removeAll gone), drill⟩ ∧
      ((a.unsubscribeAll ids).1 = .ok () → gone = ids) ∧
      (a.IsReliable → (a.unsubscribeAll ids).1 = .ok () ∧ IsReliable ⟨a.carrier, drill⟩) := by
  induction ids generalizing a with
  | nil => exact ⟨[], a.drill, by simp, by simp [unsubscribeAll], fun _ => rfl, fun h => ⟨rfl, h⟩⟩
  | cons id ids ih =>
    unfold unsubscribeAll
    rcases a.unsubscribe_cases id with ⟨drill, heq, hreliable⟩ | ⟨⟨f, drill, heq⟩, hfails⟩
    · obtain ⟨gone, drill', hgone, haccess, hok, hreliable'⟩ :=
        ih ⟨a.carrier.withSubscriptions (a.carrier.subscriptions.remove id), drill⟩
      rw [heq]
      refine ⟨id :: gone, drill', fun i hi => ?_, ?_, fun h => by rw [hok h], fun h => ?_⟩
      · rcases List.mem_cons.1 hi with rfl | hi
        · exact List.mem_cons_self
        · exact List.mem_cons_of_mem _ (hgone i hi)
      · simpa [Subscriptions.removeAll_remove] using haccess
      · exact hreliable' (hreliable h)
    · rw [heq]
      exact ⟨[], drill, by simp, by simp, nofun, fun h => absurd h hfails⟩

/-- An `abandon` takes out entries of the given numbers, whether or not each removal succeeds. -/
lemma abandon_spec (a : Access ρ) (ids : List Nat) :
    ∃ gone drill, (∀ id ∈ gone, id ∈ ids) ∧ a.abandon ids =
        ⟨a.carrier.withSubscriptions (a.carrier.subscriptions.removeAll gone), drill⟩ ∧
      (a.IsReliable → IsReliable ⟨a.carrier, drill⟩) := by
  induction ids generalizing a with
  | nil => exact ⟨[], a.drill, by simp, by simp [abandon], id⟩
  | cons id ids ih =>
    have hcons : a.abandon (id :: ids) = (a.unsubscribe id).2.abandon ids := rfl
    rw [hcons]
    rcases a.unsubscribe_cases id with ⟨drill, heq, hreliable⟩ | ⟨⟨f, drill, heq⟩, hfails⟩
    · obtain ⟨gone, drill', hgone, haccess, hreliable'⟩ :=
        ih ⟨a.carrier.withSubscriptions (a.carrier.subscriptions.remove id), drill⟩
      rw [heq]
      refine ⟨id :: gone, drill', fun i hi => ?_, ?_, fun h => hreliable' (hreliable h)⟩
      · rcases List.mem_cons.1 hi with rfl | hi
        · exact List.mem_cons_self
        · exact List.mem_cons_of_mem _ (hgone i hi)
      · simpa [Subscriptions.removeAll_remove] using haccess
    · obtain ⟨gone, drill', hgone, haccess, -⟩ := ih ⟨a.carrier, drill⟩
      rw [heq]
      exact ⟨gone, drill', fun i hi => List.mem_cons_of_mem _ (hgone i hi), haccess,
        fun h => absurd h hfails⟩

/-- Whatever becomes of `subscribeAll`, the first of the requests are granted, and none but numbers
made with them are taken out again; when all succeed, all requests are granted and nothing is taken
out. -/
lemma subscribeAll_spec {made : List Nat} {requests : List (Request ρ)}
    {result : Except Failure (List Nat)} (h : a.subscribeAll made requests = (result, a')) :
    ∃ granted gone, granted <+: requests ∧
      (∀ id ∈ gone, id ∈ made ∨ a.carrier.subscriptions.issued < id) ∧
      a'.carrier = a.carrier.withSubscriptions
        ((a.carrier.subscriptions.grantAll granted).removeAll gone) ∧
      (∀ ids, result = .ok ids → granted = requests ∧ gone = [] ∧
        ids = made ++ List.range' (a.carrier.subscriptions.issued + 1) requests.length) ∧
      (a.IsReliable → a'.IsReliable) := by
  induction requests generalizing a made with
  | nil =>
    cases h
    exact ⟨[], [], List.prefix_rfl, by simp, by simp [Subscriptions.grantAll], by simp, id⟩
  | cons q requests ih =>
    unfold subscribeAll at h
    rcases a.subscribe_cases q with ⟨drill, heq, hreliable⟩ | ⟨f, drill, heq, hreliable⟩
    · rw [heq] at h
      obtain ⟨granted, gone, hgranted, hgone, hcarrier, hok, hreliable'⟩ := ih h
      simp only [Carrier.subscriptions_withSubscriptions,
        Carrier.withSubscriptions_withSubscriptions] at hgone hcarrier hok
      refine ⟨q :: granted, gone, (List.prefix_cons_inj q).2 hgranted, fun id hid => ?_, hcarrier,
        fun ids hids => ?_, fun hr => hreliable' (hreliable hr)⟩
      · have hissued : (a.carrier.subscriptions.grant q).issued =
            a.carrier.subscriptions.issued + 1 := rfl
        rcases hgone id hid with hmade | hnew
        · rcases List.mem_append.1 hmade with hmade | hmade
          · exact .inl hmade
          · rw [List.mem_singleton] at hmade
            exact .inr (by omega)
        · exact .inr (by omega)
      · obtain ⟨rfl, rfl, rfl⟩ := hok ids hids
        refine ⟨rfl, rfl, ?_⟩
        rw [List.append_assoc, List.length_cons, List.range'_succ]
        rfl
    · rw [heq] at h
      obtain ⟨gone, drill', hgone, habandon, hreliable'⟩ := abandon_spec ⟨a.carrier, drill⟩ made
      cases h
      refine ⟨[], gone, List.nil_prefix, fun id hid => .inl (hgone id hid), ?_, nofun, fun hr => ?_⟩
      · rw [habandon]
        rfl
      · rw [habandon]
        exact hreliable' (hreliable hr)

/-- The subscriptions of a `subscribeAll` that succeeds stand behind all others, under the numbers
returned. -/
lemma subscriptions_of_subscribeAll_ok {requests : List (Request ρ)} {ids : List Nat}
    (h : a.subscribeAll [] requests = (.ok ids, a')) :
    a'.carrier.subscriptions = a.carrier.subscriptions.grantAll requests ∧
      ids = List.range' (a.carrier.subscriptions.issued + 1) requests.length := by
  obtain ⟨granted, gone, -, -, hcarrier, hok, -⟩ := subscribeAll_spec h
  obtain ⟨rfl, rfl, rfl⟩ := hok ids rfl
  rw [hcarrier, Carrier.subscriptions_withSubscriptions, Subscriptions.removeAll_nil]
  exact ⟨rfl, List.nil_append _⟩

/-- An `unsubscribeAll` that succeeds has removed all that was to be removed. -/
lemma subscriptions_of_unsubscribeAll_ok {ids : List Nat}
    (h : a.unsubscribeAll ids = (.ok (), a')) :
    a'.carrier.subscriptions = a.carrier.subscriptions.removeAll ids := by
  obtain ⟨gone, drill, -, haccess, hok, -⟩ := a.unsubscribeAll_spec ids
  rw [h] at haccess hok
  obtain rfl := hok rfl
  rw [show a' = _ from haccess, Carrier.subscriptions_withSubscriptions]

/-- Whether `subscribeAll` succeeds, and why not, does not hang on the table. -/
lemma subscribeAll_congr {b : Access ρ} (requests : List (Request ρ))
    (hbus : a.carrier.withSubscriptions {} = b.carrier.withSubscriptions {})
    (ha : a.IsReliable) (hb : b.IsReliable) (made made' : List Nat) :
    (∃ f, (a.subscribeAll made requests).1 = .error f ∧
      (b.subscribeAll made' requests).1 = .error f) ∨
    ∃ ids ids', (a.subscribeAll made requests).1 = .ok ids ∧
      (b.subscribeAll made' requests).1 = .ok ids' := by
  induction requests generalizing a b made made' with
  | nil => exact .inr ⟨made, made', rfl, rfl⟩
  | cons q requests ih =>
    have hcall {c : Access ρ} (hc : c.IsReliable) :
        c.drill.subscribes + 1 ≠ c.drill.failingSubscribe := by
      rw [hc.1]
      exact Nat.succ_ne_zero _
    have hother := Carrier.withSubscriptions_of_eq hbus
    obtain ⟨unavailable, heq⟩ := a.carrier.subscribe_eq q
    have hself := heq a.carrier.subscriptions
    have hself' := heq b.carrier.subscriptions
    rw [Carrier.withSubscriptions_subscriptions] at hself
    rw [hother] at hself'
    simp only [subscribeAll, subscribe, if_neg (hcall ha), if_neg (hcall hb), hself, hself']
    split_ifs
    · exact .inl ⟨unavailable, rfl, rfl⟩
    · refine ih (a := ⟨_, { a.drill with subscribes := a.drill.subscribes + 1 }⟩)
        (b := ⟨_, { b.drill with subscribes := b.drill.subscribes + 1 }⟩) ?_ ha hb _ _
      simp only [Carrier.withSubscriptions_withSubscriptions]
    · exact .inl ⟨.invalidTopic q.filter, rfl, rfl⟩

/-- On an open bus that `IsReliable`, subscriptions with filters are made in order. -/
lemma subscribeAll_of_open (hopen : a.carrier.isClosed = false) (hreliable : a.IsReliable)
    {requests : List (Request ρ)} (hfilters : ∀ q ∈ requests, isFilter q.filter = true)
    (made : List Nat) :
    ∃ ids, ∃ a' : Access ρ, a.subscribeAll made requests = (.ok ids, a') ∧ a'.IsReliable ∧
      a'.carrier = a.carrier.withSubscriptions (a.carrier.subscriptions.grantAll requests) ∧
      ids = made ++ List.range' (a.carrier.subscriptions.issued + 1) requests.length := by
  have hok : ∃ ids, ∃ a' : Access ρ, a.subscribeAll made requests = (.ok ids, a') := by
    induction requests generalizing a made with
    | nil => exact ⟨_, _, rfl⟩
    | cons q requests ih =>
      obtain ⟨unavailable, heq⟩ := a.carrier.subscribe_eq q
      have hself := heq a.carrier.subscriptions
      rw [Carrier.withSubscriptions_subscriptions, hopen, if_neg Bool.false_ne_true,
        if_pos (hfilters q List.mem_cons_self)] at hself
      have hcall : a.drill.subscribes + 1 ≠ a.drill.failingSubscribe := by
        rw [hreliable.1]
        exact Nat.succ_ne_zero _
      simp only [subscribeAll, subscribe, if_neg hcall, hself]
      have hrest := fun q' hq' => hfilters q' (List.mem_cons_of_mem q hq')
      refine ih (a := ⟨_, { a.drill with subscribes := a.drill.subscribes + 1 }⟩) ?_ hreliable
        hrest _
      rwa [Carrier.isClosed_withSubscriptions]
  obtain ⟨ids, a', heq⟩ := hok
  obtain ⟨granted, gone, -, -, hcarrier, hids, hreliable'⟩ := subscribeAll_spec heq
  obtain ⟨rfl, rfl, hmade⟩ := hids ids rfl
  exact ⟨ids, a', heq, hreliable' hreliable, by simpa using hcarrier, hmade⟩

end Access

end VoiceTurn.Bus
