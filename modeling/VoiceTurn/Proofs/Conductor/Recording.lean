import Mathlib.Tactic.Lemma
import Mathlib.Tactic.SplitIfs
import VoiceTurn.Proofs.Conductor.Rig

/-!
# Taps lose nothing

What happens to a conductor and its taps is, for one of the taps, a sequence of moves
(`Rig.movesAlong`), so the account of the tap balances (`Tap.Account.Balances`). As long as a tap is
held it gets a record for every message on its topics; once its subscriptions are removed no more
come, and it stops when it has passed on all that it has (`Rig.taps_record_every_message`).
-/

namespace VoiceTurn.Conductor

open Bus (Access Carrier Delivery Message Request Subscriptions)
open Topic (Registry isMatch)
open Tap (Account Move Record entered lost)

/-! ## Records of messages -/

/-- The records of a message: one for each of `Tap.cues` that has its topic. -/
def recordsOf (r : Registry) (m : Message) : List Record :=
  (Tap.cues.filter fun c => isMatch (r.ofCue c) m.topic).map fun c => ⟨m.topic, c, m.payload⟩

section
variable {t : Subscriptions Receiver} {r : Registry} {index : Nat}

/-- A tap that has its subscriptions gets `recordsOf` every message. -/
lemma recordsFor_deliveries (ht : requestsFor t (.tap index) = Site.tapRequests r index)
    (m : Message) : recordsFor index (t.deliveries m) = recordsOf r m := by
  rw [← recordsFor_filter, filter_deliveries, ht, deliveriesTo, Site.tapRequests, List.filter_map,
    List.map_map, recordsFor, List.filterMap_map, recordsOf, ← List.filterMap_eq_map]
  congr 1
  funext c
  simp

lemma recordsFor_flatMap (ht : requestsFor t (.tap index) = Site.tapRequests r index)
    (ms : List Message) :
    recordsFor index (ms.flatMap t.deliveries) = ms.flatMap (recordsOf r) := by
  rw [recordsFor, List.filterMap_flatMap]
  exact congrArg (ms.flatMap ·) (funext (recordsFor_deliveries ht))

lemma recordsFor_flatMap_of_nil (ht : entriesOf t (.tap index) = []) (ms : List Message) :
    recordsFor index (ms.flatMap t.deliveries) = [] := by
  rw [recordsFor, List.filterMap_flatMap, List.flatMap_eq_nil_iff]
  intro m _
  show recordsFor index (t.deliveries m) = []
  rw [← recordsFor_filter, filter_deliveries, requestsFor, ht]
  rfl

end

namespace Rig

/-! ## The moves of a tap -/

/-- What a deed does to the tap at `index`. -/
def movesOf (g : Rig) (index : Nat) : Deed → List Move
  | .conductor d => (recordsFor index ((g.site.messagesOf d).flatMap
      g.site.access.carrier.subscriptions.deliveries)).map .offer
  | .attach .. => []
  | .record i => if i = index then [.step] else []
  | .detach k | .abandon k =>
    if g.attachments[k]?.any (·.handle.index = index) then [.drain] else []

/-- What deeds do to the tap at `index`, in order. -/
def movesAlong (g : Rig) (index : Nat) : List Deed → List Move
  | [] => []
  | d :: deeds => g.movesOf index d ++ (g.perform d).movesAlong index deeds

/-- The `Account` of a tap from the moment at which it has been attached. -/
def account (g : Rig) (a : Attachment) (deeds : List Deed) : Account :=
  Account.moveAll { tap := a.tap } (g.movesAlong a.handle.index deeds)

variable {g : Rig} {index : Nat}

lemma run_append (g : Rig) (deeds deeds' : List Deed) :
    g.run (deeds ++ deeds') = (g.run deeds).run deeds' := List.foldl_append

lemma movesAlong_append (g : Rig) (index : Nat) (deeds deeds' : List Deed) :
    g.movesAlong index (deeds ++ deeds') =
      g.movesAlong index deeds ++ (g.run deeds).movesAlong index deeds' := by
  induction deeds generalizing g with
  | nil => rfl
  | cons d deeds ih =>
    refine (congrArg (g.movesOf index d ++ ·) (ih (g.perform d))).trans ?_
    exact (List.append_assoc ..).symm

lemma account_append (g : Rig) (a : Attachment) (deeds deeds' : List Deed) :
    g.account a (deeds ++ deeds') =
      (g.account a deeds).moveAll ((g.run deeds).movesAlong a.handle.index deeds') := by
  rw [account, movesAlong_append, Account.moveAll_append]
  rfl

lemma messages_append (g : Rig) (deeds deeds' : List Deed) :
    g.messages (deeds ++ deeds') = g.messages deeds ++ (g.run deeds).messages deeds' := by
  induction deeds generalizing g with
  | nil => rfl
  | cons d deeds ih =>
    refine (congrArg (g.messagesOf d ++ ·) (ih (g.perform d))).trans ?_
    exact (List.append_assoc ..).symm

/-- A deed does to a tap what its `movesOf` say. -/
lemma getElem?_taps_perform (h : g.IsSound) {account : Account}
    (htap : g.site.taps[index]? = some account.tap) (d : Deed) :
    (g.perform d).site.taps[index]? = some (account.moveAll (g.movesOf index d)).tap := by
  have hdrain {i : Nat} : (g.site.taps.modify i Tap.drain)[index]? =
      some (account.moveAll (if i = index then [.drain] else [])).tap := by
    by_cases hi : i = index
    · rw [if_pos hi, hi, List.getElem?_modify_eq, htap]
      rfl
    · rw [if_neg hi, List.getElem?_modify_ne _ _ hi, htap]
      rfl
  cases d with
  | conductor d =>
    simp only [movesOf, Account.tap_moveAll_offers]
    by_cases hd : d = .unsubscribe
    · -- nothing is handed over while the inbox gives up its subscriptions
      subst hd
      exact htap
    · simp only [Rig.perform]
      rw [(g.site.passes_perform hd).taps, getElem?_handed, htap]
      rfl
  | attach r capacity sink =>
    obtain ⟨result, access, tap, ready, hattach, -⟩ := IsOrderly.attachTap h r capacity sink
    simp only [Rig.perform, hattach]
    rw [List.getElem?_append_left (List.getElem?_eq_some_iff.1 htap).1, htap]
    rfl
  | record i =>
    obtain ⟨left, hrecord⟩ := g.site.tapStep?_getD i
    simp only [Rig.perform, hrecord, movesOf]
    by_cases hi : i = index
    · rw [if_pos hi, hi, List.getElem?_modify_eq, htap]
      have hmove : (account.move .step).tap = account.tap.step?.getD account.tap := by
        unfold Account.move
        cases account.tap.step? <;> rfl
      exact congrArg some hmove.symm
    · rw [if_neg hi, List.getElem?_modify_ne _ _ hi, htap]
      rfl
  | detach k =>
    cases hplace : g.attachments[k]? with
    | none =>
      simp only [Rig.perform, movesOf, hplace]
      exact htap
    | some a =>
      obtain ⟨ready, hrelease⟩ := g.site.releaseTap_eq a.handle
      simp only [Rig.perform, movesOf, hplace, hrelease, Option.any_some, decide_eq_true_iff]
      exact hdrain
  | abandon k =>
    cases hplace : g.attachments[k]? with
    | none =>
      simp only [Rig.perform, movesOf, hplace]
      exact htap
    | some a =>
      obtain ⟨ready, habandon⟩ := g.site.abandonTap_eq a.handle
      simp only [Rig.perform, movesOf, hplace, habandon, Option.any_some, decide_eq_true_iff]
      exact hdrain

lemma getElem?_taps_run (h : g.IsSound) {account : Account}
    (htap : g.site.taps[index]? = some account.tap) (deeds : List Deed) :
    (g.run deeds).site.taps[index]? = some (account.moveAll (g.movesAlong index deeds)).tap := by
  induction deeds generalizing g account with
  | nil => exact htap
  | cons d deeds ih =>
    rw [movesAlong, Account.moveAll_append]
    exact ih (h.perform d) (getElem?_taps_perform h htap d)

/-- The `account` of a tap is about the tap at its place. -/
lemma getElem?_taps_account (h : g.IsSound) {a : Attachment}
    (htap : g.site.taps[a.handle.index]? = some a.tap) (deeds : List Deed) :
    (g.run deeds).site.taps[a.handle.index]? = some (g.account a deeds).tap := by
  have hstart : g.site.taps[a.handle.index]? = some (Account.mk a.tap [] []).tap := htap
  exact getElem?_taps_run h hstart deeds

/-! ## While a tap is held -/

/-- After `attach` the tap is held under the handle that it gets. -/
lemma attachments_attach {g : Rig} {r : Registry} {capacity : Nat} {sink : Tap.Sink}
    {handle : TapHandle} (h : (g.site.attachTap r (.withCapacity capacity sink)).1 = .ok handle) :
    (g.perform (.attach r capacity sink)).attachments =
      g.attachments ++ [⟨handle, r, capacity, sink⟩] := by
  cases hresult : g.site.attachTap r (.withCapacity capacity sink) with
  | mk result site =>
    rw [hresult] at h
    simp only [Rig.perform, hresult, h, attachmentOf]

lemma attachments_detach (g : Rig) (k : Nat) :
    (g.perform (.detach k)).attachments = g.attachments.eraseIdx k := by
  cases hplace : g.attachments[k]? with
  | none =>
    simp only [Rig.perform, hplace]
    exact (List.eraseIdx_of_length_le (List.getElem?_eq_none_iff.1 hplace)).symm
  | some a => simp only [Rig.perform, hplace]

lemma attachments_abandon (g : Rig) (k : Nat) :
    (g.perform (.abandon k)).attachments = g.attachments.eraseIdx k := by
  cases hplace : g.attachments[k]? with
  | none =>
    simp only [Rig.perform, hplace]
    exact (List.eraseIdx_of_length_le (List.getElem?_eq_none_iff.1 hplace)).symm
  | some a => simp only [Rig.perform, hplace]

section
variable {a : Attachment}

/-- No `attach` takes the place of a tap. -/
lemma mem_of_mem_perform (h : g.IsSound) (hplace : a.handle.index < g.site.taps.length) {d : Deed}
    (ha : a ∈ (g.perform d).attachments) : a ∈ g.attachments := by
  cases d with
  | conductor d => exact ha
  | attach r capacity sink =>
    obtain ⟨result, access, tap, ready, hattach, -, -, hfresh, -⟩ :=
      IsOrderly.attachTap h r capacity sink
    simp only [Rig.perform, hattach] at ha
    rcases List.mem_append.1 ha with ha | ha
    · exact ha
    · rw [(hfresh a ha).1] at hplace
      exact absurd hplace (Nat.lt_irrefl _)
  | record i => exact ha
  | detach k =>
    rw [attachments_detach] at ha
    exact List.mem_of_mem_eraseIdx ha
  | abandon k =>
    rw [attachments_abandon] at ha
    exact List.mem_of_mem_eraseIdx ha

/-- While a tap is held it is not told to `drain`, and what it is offered are `recordsOf` the
messages. -/
lemma movesOf_of_mem (h : g.IsSound) (ha : a ∈ g.attachments) {d : Deed}
    (ha' : a ∈ (g.perform d).attachments) :
    Move.drain ∉ g.movesOf a.handle.index d ∧
      (g.movesOf a.handle.index d).filterMap Move.offered? =
        (g.messagesOf d).flatMap (recordsOf a.registry) := by
  have hother {k : Nat} (hk : a ∈ g.attachments.eraseIdx k) :
      ¬ g.attachments[k]?.any (·.handle.index = a.handle.index) = true := by
    cases hplace : g.attachments[k]? with
    | none => exact Bool.false_ne_true
    | some b =>
      intro hsame
      exact h.part_ne hplace hk (congrArg Part.tap (of_decide_eq_true hsame).symm)
  cases d with
  | conductor d =>
    rw [movesOf, recordsFor_flatMap (h.complete a ha).requests, List.filterMap_map]
    refine ⟨fun hdrain => ?_, List.filterMap_some⟩
    obtain ⟨r, -, heq⟩ := List.mem_map.1 hdrain
    cases heq
  | attach r capacity sink => exact ⟨List.not_mem_nil, rfl⟩
  | record i =>
    simp only [movesOf]
    split_ifs
    · exact ⟨by simp, rfl⟩
    · exact ⟨List.not_mem_nil, rfl⟩
  | detach k =>
    rw [attachments_detach] at ha'
    rw [movesOf, if_neg (hother ha')]
    exact ⟨List.not_mem_nil, rfl⟩
  | abandon k =>
    rw [attachments_abandon] at ha'
    rw [movesOf, if_neg (hother ha')]
    exact ⟨List.not_mem_nil, rfl⟩

/-- As long as a tap is held it `IsOnDuty`, and it has been offered `recordsOf` all messages. -/
lemma account_of_mem (h : g.IsSound)
    (htap : g.site.taps[a.handle.index]? = some a.tap) {deeds : List Deed}
    (ha : a ∈ (g.run deeds).attachments) :
    (g.account a deeds).IsOnDuty ∧ (g.account a deeds).arrivals.map Prod.fst =
      (g.messages deeds).flatMap (recordsOf a.registry) := by
  -- on the last deed, since a tap that is held after it was held before, but not the other way
  induction deeds using List.reverseRecOn with
  | nil => exact ⟨.inl rfl, rfl⟩
  | append_singleton deeds d ih =>
    rw [run_append] at ha
    have hrun := h.run deeds
    have hplace := getElem?_taps_account h htap deeds
    have hheld := mem_of_mem_perform hrun (List.getElem?_eq_some_iff.1 hplace).1 ha
    obtain ⟨hduty, harrivals⟩ := ih hheld
    obtain ⟨hnot, hrecords⟩ := movesOf_of_mem hrun hheld ha
    obtain ⟨hduty', harrivals'⟩ := hduty.moveAll hnot
    have haccount : g.account a (deeds ++ [d]) =
        (g.account a deeds).moveAll ((g.run deeds).movesOf a.handle.index d) := by
      rw [account_append, movesAlong, movesAlong, List.append_nil]
    rw [haccount]
    refine ⟨hduty', harrivals'.trans ?_⟩
    rw [harrivals, hrecords, messages_append, messages, messages, List.append_nil,
      List.flatMap_append]

/-- A tap that has just been attached is as it has been made, so its `account` begins there. -/
lemma getElem?_taps_attach (h : g.IsSound) {r : Registry} {capacity : Nat} {sink : Tap.Sink}
    (ha : a ∈ (g.perform (.attach r capacity sink)).attachments) (hnew : a ∉ g.attachments) :
    (g.perform (.attach r capacity sink)).site.taps[a.handle.index]? = some a.tap := by
  obtain ⟨result, access, tap, ready, hattach, -, -, hfresh, -⟩ :=
    IsOrderly.attachTap h r capacity sink
  simp only [Rig.perform, hattach] at ha ⊢
  obtain ⟨hindex, htap⟩ := hfresh a ((List.mem_append.1 ha).resolve_left hnew)
  rw [hindex, htap, List.getElem?_concat_length]

/-! ## Once a tap is detached -/

lemma entriesOf_perform_sublist (h : g.IsSound) (hplace : index < g.site.taps.length) (d : Deed) :
    (entriesOf (g.perform d).site.access.carrier.subscriptions (.tap index)).Sublist
      (entriesOf g.site.access.carrier.subscriptions (.tap index)) := by
  cases hd : d.ofConductor? with
  | none => exact (movesTaps_perform h hd).taps index hplace
  | some d' =>
    cases d with
    | attach | record | detach | abandon => cases hd
    | conductor d =>
      by_cases hd : d = .unsubscribe
      · subst hd
        obtain ⟨gone, drill, -, haccess, -, -⟩ :=
          g.site.access.unsubscribeAll_spec g.site.subscriptions
        show (entriesOf (g.site.access.unsubscribeAll
          g.site.subscriptions).2.carrier.subscriptions (.tap index)).Sublist _
        rw [haccess, Carrier.subscriptions_withSubscriptions, entriesOf_removeAll]
        exact List.filter_sublist
      · simp only [Rig.perform, (g.site.passes_perform hd).table]
        exact List.Sublist.refl _

lemma movesAlong_of_nil (h : g.IsSound) {account : Account}
    (htap : g.site.taps[index]? = some account.tap)
    (hnone : entriesOf g.site.access.carrier.subscriptions (.tap index) = []) (deeds : List Deed) :
    entriesOf (g.run deeds).site.access.carrier.subscriptions (.tap index) = [] ∧
      ∀ m ∈ g.movesAlong index deeds, m.offered? = none := by
  -- the table has nothing for the tap before each deed, so the deed offers it nothing
  induction deeds generalizing g account with
  | nil => exact ⟨hnone, List.forall_mem_nil _⟩
  | cons d deeds ih =>
    have hsublist := entriesOf_perform_sublist h (List.getElem?_eq_some_iff.1 htap).1 d
    rw [hnone] at hsublist
    obtain ⟨hrun, hrest⟩ :=
      ih (h.perform d) (getElem?_taps_perform h htap d) (List.eq_nil_of_sublist_nil hsublist)
    refine ⟨hrun, fun m hm => ?_⟩
    rcases List.mem_append.1 hm with hm | hm
    · cases d with
      | conductor d =>
        simp only [movesOf, recordsFor_flatMap_of_nil hnone] at hm
        cases hm
      | attach r capacity sink => cases hm
      | record i =>
        simp only [movesOf] at hm
        split_ifs at hm
        · rw [List.mem_singleton.1 hm]
          rfl
        · cases hm
      | detach k | abandon k =>
        simp only [movesOf] at hm
        split_ifs at hm
        · rw [List.mem_singleton.1 hm]
          rfl
        · cases hm
    · exact hrest m hm

section
variable {k : Nat} (hk : g.attachments[k]? = some a)
  (hok : (g.site.releaseTap a.handle).1 = .ok ())
include hk hok

/-- After `detach` the tap has no subscriptions. -/
lemma entriesOf_perform_detach (h : g.IsSound) :
    entriesOf (g.perform (.detach k)).site.access.carrier.subscriptions a.part = [] := by
  obtain ⟨ready, hrelease⟩ := g.site.releaseTap_eq a.handle
  obtain ⟨gone, drill, -, haccess, hgone, -⟩ :=
    g.site.access.unsubscribeAll_spec a.handle.subscriptions
  rw [hrelease] at hok
  have hids := (h.complete a (List.mem_of_getElem? hk)).ids
  simp only [Rig.perform, hk, hrelease]
  rw [haccess, Carrier.subscriptions_withSubscriptions, hgone hok, ← hids,
    entriesOf_removeAll_idsOf]

/-- A `detachTap` is the deed `detach`, and waiting. -/
lemma exists_run_detachTap (steps : Nat) :
    ∃ later, g.site.detachTap a.handle steps =
      (.ok (), (g.run (.detach k :: later)).site) := by
  have hrelease : g.site.releaseTap a.handle = (.ok (), (g.site.releaseTap a.handle).2) :=
    Prod.ext hok rfl
  obtain ⟨later, hlater⟩ := leads_await (fun t : Site => t.hasTapStopped a.handle.index) steps steps
    (g.site.releaseTap a.handle).2 (g.attachments.eraseIdx k)
  refine ⟨later, ?_⟩
  have hperform : g.perform (.detach k) =
      ⟨(g.site.releaseTap a.handle).2, g.attachments.eraseIdx k⟩ := by
    simp only [Rig.perform, hk]
  unfold Site.detachTap
  rw [hrelease]
  show _ = (Except.ok (), ((g.perform (.detach k)).run later).site)
  rw [hperform, hlater]

end

lemma movesOf_detach {k : Nat} (hk : g.attachments[k]? = some a) :
    g.movesOf a.handle.index (.detach k) = [.drain] := by
  simp [movesOf, hk]

lemma movesAlong_replicate_record (g : Rig) (index n : Nat) :
    g.movesAlong index (.replicate n (.record index)) = .replicate n .step := by
  induction n generalizing g with
  | zero => rfl
  | succ n ih =>
    rw [List.replicate_succ, List.replicate_succ, movesAlong, ih, movesOf, if_pos rfl]
    rfl

section
variable {k : Nat} {account : Account} {capacity : Nat} {sink : Tap.Sink} (h : g.IsSound)
  (hk : g.attachments[k]? = some a) (htap : g.site.taps[a.handle.index]? = some account.tap)
  (hbalances : account.Balances capacity sink)
include h hk htap hbalances

/-- After `detach` nothing comes to the tap, and when it has `stopped` it has passed on all that has
entered its queue. -/
lemma run_detach_spec (hok : (g.site.releaseTap a.handle).1 = .ok ()) (later : List Deed) :
    requestsFor (g.run (.detach k :: later)).site.access.carrier.subscriptions a.part = [] ∧
      ∃ tap, (g.run (.detach k :: later)).site.taps[a.handle.index]? = some tap ∧
        tap.dropped = account.tap.dropped ∧
        (tap.stage = .stopped → tap.sink = sink.recordAll (entered account.arrivals)) := by
  have hdetached := getElem?_taps_perform h htap (.detach k)
  obtain ⟨hgone, hquiet⟩ := movesAlong_of_nil (h.perform (.detach k)) hdetached
    (entriesOf_perform_detach hk hok h) later
  have hafter := getElem?_taps_run (h.perform (.detach k)) hdetached later
  rw [movesOf_detach hk] at hafter
  -- the account goes on balancing after the drain, with the arrivals that it had
  have hbalances' := (hbalances.moveAll [.drain]).moveAll
    ((g.perform (.detach k)).movesAlong a.handle.index later)
  have harrivals : ((account.moveAll [.drain]).moveAll
      ((g.perform (.detach k)).movesAlong a.handle.index later)).arrivals = account.arrivals :=
    Account.arrivals_moveAll hquiet
  refine ⟨?_, _, hafter, ?_, fun hstopped => ?_⟩
  · exact congrArg (List.map _) hgone
  · rw [hbalances'.dropped, harrivals, hbalances.dropped]
  · have hflow := hbalances'.flow
    rw [hbalances'.emptied hstopped, List.append_nil, harrivals] at hflow
    rw [hbalances'.sink, hflow]

/-- A tap that has been detached stops, if its sink `AnswersAlways`. -/
lemma hasTapStopped_run_detach (hanswers : sink.AnswersAlways)
    (hrunning : account.tap.stage = .running) :
    (g.run (.detach k :: .replicate (account.tap.queue.length + 1)
      (.record a.handle.index))).site.hasTapStopped a.handle.index = true := by
  have hdetached := getElem?_taps_perform h htap (.detach k)
  have hafter := getElem?_taps_run (h.perform (.detach k)) hdetached
    (.replicate (account.tap.queue.length + 1) (.record a.handle.index))
  rw [movesOf_detach hk, movesAlong_replicate_record] at hafter
  have hstops := (hbalances.moveAll [.drain]).stops hanswers (Tap.stage_drain hrunning)
  have hqueue : (account.moveAll [.drain]).tap.queue = account.tap.queue := Tap.queue_drain _
  rw [hqueue] at hstops
  have hsite : g.run (.detach k :: .replicate (account.tap.queue.length + 1)
      (.record a.handle.index)) = (g.perform (.detach k)).run
        (.replicate (account.tap.queue.length + 1) (.record a.handle.index)) := rfl
  rw [Site.hasTapStopped, hsite, hafter]
  exact decide_eq_true hstops

end

end

end Rig

end VoiceTurn.Conductor
