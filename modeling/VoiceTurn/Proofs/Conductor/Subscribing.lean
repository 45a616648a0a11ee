import VoiceTurn.Proofs.Bus.Sharing
import VoiceTurn.Proofs.Conductor.Rig

/-!
# Starting and stopping on a shared bus

A conductor or a tap that cannot make all of its subscriptions leaves the bus as it was, and one
that stops takes back its own subscriptions and nothing else, whatever others have done to the bus
in the meantime. What a site does by itself leaves the table alone (`Site.KeepsTable`), and what is
done to it leaves it the numbers of its own subscriptions (`Site.Shares`).
-/

namespace VoiceTurn.Conductor

open Bus (Access Carrier Failure Request Subscription Subscriptions)
open Topic (Registry)

namespace Site

variable {s s' s'' : Site}

/-! ## What a site does by itself -/

/-- Nothing is done to the table of the bus, nor to `Site.subscriptions`. -/
structure KeepsTable (s s' : Site) : Prop where
  table : s'.access.carrier.subscriptions = s.access.carrier.subscriptions
  drill : s'.access.drill = s.access.drill
  subscriptions : s'.subscriptions = s.subscriptions

namespace KeepsTable

lemma refl (s : Site) : s.KeepsTable s := ⟨rfl, rfl, rfl⟩

lemma trans (h : s.KeepsTable s') (h' : s'.KeepsTable s'') : s.KeepsTable s'' :=
  ⟨h'.table.trans h.table, h'.drill.trans h.drill, h'.subscriptions.trans h.subscriptions⟩

end KeepsTable

lemma Passes.keepsTable {ms : List Bus.Message} (h : s.Passes ms s') : s.KeepsTable s' :=
  ⟨h.table, h.drill, h.subscriptions⟩

lemma keepsTable_partStep? {p : Part} (h : s.partStep? p = some s') : s.KeepsTable s' := by
  cases p with
  | worker =>
    have hwork := s.passes_work
    rw [show s.workStep? = some s' from h] at hwork
    exact hwork.keepsTable
  | tap i =>
    obtain ⟨left, hrecord⟩ := s.tapStep?_getD i
    rw [show s.tapStep? i = some s' from h, Option.getD_some] at hrecord
    rw [hrecord]
    exact ⟨rfl, rfl, rfl⟩

lemma keepsTable_step? (h : s.step? = some s') : s.KeepsTable s' := by
  cases steps_of_step? h with
  | read hread =>
    have hpasses := s.passes_read
    rw [hread] at hpasses
    exact hpasses.keepsTable
  | giveWay | rest => exact ⟨rfl, rfl, rfl⟩
  | goOn _ hpart => exact keepsTable_partStep? hpart

lemma keepsTable_finishRound (steps : Nat) (s : Site) :
    s.KeepsTable (World.finishRound steps s) := by
  refine World.finishRound_induction (P := s.KeepsTable) (fun t t' h hstep => ?_)
    (fun t t' h hround => ?_) steps s (.refl s)
  · exact h.trans (keepsTable_step? hstep)
  · obtain ⟨-, rfl⟩ := nextRound?_eq_some_iff.1 hround
    exact h.trans ⟨rfl, rfl, rfl⟩

/-- An `await` leaves the table alone. -/
lemma keepsTable_await (isDone : Site → Bool) (steps rounds : Nat) (s : Site) :
    s.KeepsTable (World.await isDone steps rounds s) := by
  refine World.await_induction (P := s.KeepsTable) (fun t h => ?_) (fun t due h _ => ?_) isDone
    rounds s (.refl s)
  · exact h.trans (keepsTable_finishRound steps t)
  · exact h.trans (t.passes_perform (d := .clock _) nofun).keepsTable

/-! ## What is done to a site -/

/-- The table of a site goes on as it does when others use it as well (`Evolves`), and the site
knows its own subscriptions by the same numbers. -/
structure Shares (s s' : Site) : Prop where
  table : s.access.carrier.subscriptions.Evolves s'.access.carrier.subscriptions
  subscriptions : s'.subscriptions = s.subscriptions

lemma Shares.trans (h : s.Shares s') (h' : s'.Shares s'') : s.Shares s'' :=
  ⟨h.table.trans h'.table, h'.subscriptions.trans h.subscriptions⟩

lemma KeepsTable.shares (h : s.KeepsTable s') : s.Shares s' where
  table := by
    rw [h.table]
    exact .refl
  subscriptions := h.subscriptions

section
variable {access access' : Access Receiver} {taps taps' : List Tap} {retry : Bus.Retry}
  {r : Registry} {settings : Settings} {tap : Tap}

lemma evolves_start {result : Except Refusal Site}
    (h : start access taps retry r settings = (result, access')) :
    access.carrier.subscriptions.Evolves access'.carrier.subscriptions := by
  rcases start_cases h with ⟨_, _, -, -, rfl⟩ | ⟨-, ⟨_, hsubscribe, -⟩ | ⟨_, hsubscribe, -⟩⟩
  · exact .refl
  · exact Access.evolves_subscribeAll hsubscribe
  · exact Access.evolves_subscribeAll hsubscribe

lemma evolves_attachTo {result : Except Failure TapHandle}
    (h : attachTo access taps r tap = (result, access', taps')) :
    access.carrier.subscriptions.Evolves access'.carrier.subscriptions := by
  rcases attachTo_cases h with ⟨_, hsubscribe, -⟩ | ⟨_, hsubscribe, -⟩
  · exact Access.evolves_subscribeAll hsubscribe
  · exact Access.evolves_subscribeAll hsubscribe

end

lemma shares_attachTap (s : Site) (r : Registry) (tap : Tap) : s.Shares (s.attachTap r tap).2 := by
  unfold attachTap
  cases hattach : attachTo s.access s.taps r tap with
  | mk result rest =>
    obtain ⟨access, taps⟩ := rest
    have hevolves := evolves_attachTo hattach
    cases result with
    | error f => exact ⟨hevolves, rfl⟩
    | ok handle =>
      obtain ⟨ready, hready⟩ := wake_eq { s with access, taps } (.tap handle.index)
      simp only [hready]
      exact ⟨hevolves, rfl⟩

lemma shares_releaseTap (s : Site) (handle : TapHandle) : s.Shares (s.releaseTap handle).2 := by
  obtain ⟨ready, hrelease⟩ := s.releaseTap_eq handle
  rw [hrelease]
  exact ⟨Access.evolves_unsubscribeAll .., rfl⟩

lemma shares_perform (g : Rig) {d : Rig.Deed} (hd : d ≠ .conductor .unsubscribe) :
    g.site.Shares (g.perform d).site := by
  cases d with
  | conductor d =>
    have hne : d ≠ .unsubscribe := fun heq => hd (congrArg _ heq)
    exact (g.site.passes_perform hne).keepsTable.shares
  | attach r capacity sink => exact g.site.shares_attachTap r (.withCapacity capacity sink)
  | record i =>
    obtain ⟨left, hrecord⟩ := g.site.tapStep?_getD i
    simp only [Rig.perform, hrecord]
    exact ⟨.refl, rfl⟩
  | detach k =>
    cases hplace : g.attachments[k]? with
    | none => simpa only [Rig.perform, hplace] using (KeepsTable.refl g.site).shares
    | some a => simpa only [Rig.perform, hplace] using g.site.shares_releaseTap a.handle
  | abandon k =>
    cases hplace : g.attachments[k]? with
    | none => simpa only [Rig.perform, hplace] using (KeepsTable.refl g.site).shares
    | some a =>
      obtain ⟨ready, habandon⟩ := g.site.abandonTap_eq a.handle
      simp only [Rig.perform, hplace, habandon]
      exact ⟨.refl, rfl⟩

/-- Deeds other than `unsubscribe` are such that the site `Shares` the bus. -/
lemma shares_run (g : Rig) {deeds : List Rig.Deed} (hdeeds : .conductor .unsubscribe ∉ deeds) :
    g.site.Shares (g.run deeds).site := by
  induction deeds generalizing g with
  | nil => exact (KeepsTable.refl g.site).shares
  | cons d deeds ih =>
    have hd : d ≠ .conductor .unsubscribe := fun heq => hdeeds (heq ▸ List.mem_cons_self)
    exact (shares_perform g hd).trans (ih (g.perform d) fun h => hdeeds (List.mem_cons_of_mem _ h))

/-! ## Stopping -/

lemma subscriptions_of_unsubscribe_ok (h : s.unsubscribe = (.ok (), s')) :
    s'.access.carrier.subscriptions = s.access.carrier.subscriptions.removeAll s.subscriptions := by
  unfold unsubscribe at h
  cases hall : s.access.unsubscribeAll s.subscriptions with
  | mk result access =>
    rw [hall] at h
    cases result with
    | error f => cases h
    | ok _ =>
      cases h
      exact Access.subscriptions_of_unsubscribeAll_ok hall

/-- A `shutdown` that succeeds has removed the subscriptions of the inbox from the table, which has
been left alone until then. -/
lemma subscriptions_of_shutdown_ok {steps : Nat} (h : s.shutdown steps = (.ok (), s')) :
    s'.access.carrier.subscriptions = s.access.carrier.subscriptions.removeAll s.subscriptions := by
  unfold shutdown at h
  split_ifs at h
  · cases h
  have hawait := (s.passes_perform (d := .order) nofun).keepsTable.trans
    (keepsTable_await (fun t : Site => t.worker.isStopped) steps steps s.orderStop)
  rw [subscriptions_of_unsubscribe_ok h, hawait.table, hawait.subscriptions]

/-- A `detachTap` that succeeds has removed the subscriptions of the tap from the table. -/
lemma subscriptions_of_detachTap_ok {handle : TapHandle} {steps : Nat}
    (h : s.detachTap handle steps = (.ok (), s')) :
    s'.access.carrier.subscriptions =
      s.access.carrier.subscriptions.removeAll handle.subscriptions := by
  obtain ⟨ready, hrelease⟩ := s.releaseTap_eq handle
  unfold detachTap at h
  rw [hrelease] at h
  cases hall : s.access.unsubscribeAll handle.subscriptions with
  | mk result access =>
    rw [hall] at h
    cases result with
    | error f => cases h
    | ok _ =>
      cases h
      rw [(keepsTable_await ..).table]
      exact Access.subscriptions_of_unsubscribeAll_ok hall

/-- On a bus on which removals succeed, a `shutdown` of what has not been stopped succeeds. -/
lemma exists_shutdown (hrunning : s.isStopping = false) (hreliable : s.access.IsReliable)
    (steps : Nat) : ∃ s', s.shutdown steps = (.ok (), s') := by
  have hawait := (s.passes_perform (d := .order) nofun).keepsTable.trans
    (keepsTable_await (fun t : Site => t.worker.isStopped) steps steps s.orderStop)
  unfold shutdown
  rw [if_neg (by rw [hrunning]; exact Bool.false_ne_true)]
  generalize World.await (fun t : Site => t.worker.isStopped) steps steps s.orderStop = stopped at *
  have hreliable' : stopped.access.IsReliable := by
    rw [Access.IsReliable, hawait.drill]
    exact hreliable
  obtain ⟨_, _, -, -, -, hok⟩ := stopped.access.unsubscribeAll_spec stopped.subscriptions
  exact ⟨_, Prod.ext (congrArg (·.mapError Refusal.bus) (hok hreliable').1) rfl⟩

/-! ## All or none -/

section
variable {access access' : Access Receiver} {taps taps' : List Tap} {retry : Bus.Retry}
  {r : Registry} {settings : Settings} {tap : Tap}

lemma entries_of_start_error (ht : access.carrier.subscriptions.IsNumbered)
    (hremoves : access.Removes) {refusal : Refusal}
    (h : start access taps retry r settings = (.error refusal, access')) :
    access'.carrier.subscriptions.entries = access.carrier.subscriptions.entries := by
  rcases start_cases h with ⟨_, _, -, -, rfl⟩ | ⟨-, ⟨f, hsubscribe, -⟩ | ⟨_, -, heq, -⟩⟩
  · rfl
  · exact (Access.subscribeAll_all_or_none ht hsubscribe).2.1 f rfl hremoves
  · cases heq

lemma isReliable_of_start {begun : Site}
    (h : start access taps retry r settings = (.ok begun, access'))
    (hreliable : access.IsReliable) : begun.access.IsReliable := by
  rcases start_cases h with ⟨_, _, -, heq, -⟩ | ⟨-, ⟨_, -, heq⟩ | ⟨_, hsubscribe, heq, rfl, -⟩⟩
  · cases heq
  · cases heq
  cases heq
  obtain ⟨_, _, -, -, -, -, hreliable'⟩ := Access.subscribeAll_spec hsubscribe
  exact hreliable' hreliable

/-- The subscriptions that `start` makes, and `shutdown` removes. -/
lemma exists_adds_of_start_ok (ht : access.carrier.subscriptions.IsNumbered) {begun : Site}
    (h : start access taps retry r settings = (.ok begun, access')) :
    begun.access = access' ∧ ∃ added,
      access.carrier.subscriptions.Adds access'.carrier.subscriptions
        (inboxRequests r settings.bus.inboundQos) added ∧
      ∀ s s', begun.Shares s →
        (∃ steps, s.shutdown steps = (.ok (), s')) ∨ s.unsubscribe = (.ok (), s') →
        s.access.carrier.subscriptions.Drops s'.access.carrier.subscriptions added := by
  rcases start_cases h with ⟨_, _, -, heq, -⟩ | ⟨-, ⟨_, -, heq⟩ | ⟨_, hsubscribe, heq, rfl, -⟩⟩
  · cases heq
  · cases heq
  cases heq
  obtain ⟨added, hadds, hdrops⟩ := (Access.subscribeAll_all_or_none ht hsubscribe).2.2 _ rfl
  refine ⟨rfl, added, hadds, fun s s' hshares hstop => ?_⟩
  have htable : s'.access.carrier.subscriptions =
      s.access.carrier.subscriptions.removeAll s.subscriptions := by
    rcases hstop with ⟨steps, hshutdown⟩ | hunsubscribe
    · exact subscriptions_of_shutdown_ok hshutdown
    · exact subscriptions_of_unsubscribe_ok hunsubscribe
  rw [htable, hshares.subscriptions]
  exact hdrops _ hshares.table

lemma entries_of_attachTo_error (ht : access.carrier.subscriptions.IsNumbered)
    (hremoves : access.Removes) {f : Failure}
    (h : attachTo access taps r tap = (.error f, access', taps')) :
    access'.carrier.subscriptions.entries = access.carrier.subscriptions.entries := by
  rcases attachTo_cases h with ⟨f, hsubscribe, -⟩ | ⟨_, -, heq, -⟩
  · exact (Access.subscribeAll_all_or_none ht hsubscribe).2.1 f rfl hremoves
  · cases heq

/-- The subscriptions that `attachTo` makes, and `detachTap` removes. -/
lemma exists_adds_of_attachTo_ok (ht : access.carrier.subscriptions.IsNumbered)
    {handle : TapHandle} (h : attachTo access taps r tap = (.ok handle, access', taps')) :
    ∃ added, access.carrier.subscriptions.Adds access'.carrier.subscriptions
        (tapRequests r taps.length) added ∧
      ∀ (s s' : Site) steps, access'.carrier.subscriptions.Evolves s.access.carrier.subscriptions →
        s.detachTap handle steps = (.ok (), s') →
        s.access.carrier.subscriptions.Drops s'.access.carrier.subscriptions added := by
  rcases attachTo_cases h with ⟨_, -, heq, -⟩ | ⟨_, hsubscribe, heq, -⟩
  · cases heq
  cases heq
  obtain ⟨added, hadds, hdrops⟩ := (Access.subscribeAll_all_or_none ht hsubscribe).2.2 _ rfl
  refine ⟨added, hadds, fun s s' steps hevolves hdetach => ?_⟩
  rw [subscriptions_of_detachTap_ok hdetach]
  exact hdrops _ hevolves

end

/-- When `start` or `attachTo` fails, for whatever reason and after however many subscriptions, the
entries of the table are those that it had. Otherwise five entries, or two for a tap, are added
behind them, and `shutdown` or `detachTap` removes these after whatever others have done
(`Evolves`), and leaves all other entries in their order. -/
theorem subscriptions_are_all_or_none {access : Access Receiver}
    (hbus : ({} : Subscriptions Receiver).Evolves access.carrier.subscriptions) (taps : List Tap)
    (retry : Bus.Retry) (r : Registry) (settings : Settings) (tap : Tap) :
    let before := access.carrier.subscriptions
    -- a conductor
    (∀ result access', start access taps retry r settings = (result, access') →
      before.Evolves access'.carrier.subscriptions ∧
      (∀ refusal, result = .error refusal → access.Removes →
        access'.carrier.subscriptions.entries = before.entries) ∧
      ∀ begun, result = .ok begun → begun.access = access' ∧
        ∃ added, added.length = 5 ∧
          before.Adds access'.carrier.subscriptions
            (inboxRequests r settings.bus.inboundQos) added ∧
          ∀ s s', begun.Shares s →
            (∃ steps, s.shutdown steps = (.ok (), s')) ∨ s.unsubscribe = (.ok (), s') →
            s.access.carrier.subscriptions.Drops s'.access.carrier.subscriptions added) ∧
    -- a tap
    (∀ result access' taps', attachTo access taps r tap = (result, access', taps') →
      before.Evolves access'.carrier.subscriptions ∧
      (∀ f, result = .error f → access.Removes →
        access'.carrier.subscriptions.entries = before.entries) ∧
      ∀ handle, result = .ok handle →
        ∃ added, added.length = 2 ∧
          before.Adds access'.carrier.subscriptions (tapRequests r taps.length) added ∧
          ∀ (s s' : Site) steps,
            access'.carrier.subscriptions.Evolves s.access.carrier.subscriptions →
            s.detachTap handle steps = (.ok (), s') →
            s.access.carrier.subscriptions.Drops s'.access.carrier.subscriptions added) ∧
    -- what may happen between the start and the stop
    ∀ (g : Rig) (deeds : List Rig.Deed), .conductor .unsubscribe ∉ deeds →
      g.site.Shares (g.run deeds).site := by
  intro before
  have ht : access.carrier.subscriptions.IsNumbered := hbus.isNumbered
  refine ⟨fun result access' hstart => ⟨evolves_start hstart, ?_, ?_⟩,
    fun result access' taps' hattach => ⟨evolves_attachTo hattach, ?_, ?_⟩,
    fun g _ hdeeds => shares_run g hdeeds⟩
  · rintro refusal rfl hremoves
    exact entries_of_start_error ht hremoves hstart
  · rintro begun rfl
    obtain ⟨haccess, added, hadds, hstops⟩ := exists_adds_of_start_ok ht hstart
    exact ⟨haccess, added, hadds.length_eq.trans rfl, hadds, hstops⟩
  · rintro f rfl hremoves
    exact entries_of_attachTo_error ht hremoves hattach
  · rintro handle rfl
    obtain ⟨added, hadds, hdetaches⟩ := exists_adds_of_attachTo_ok ht hattach
    exact ⟨added, hadds.length_eq.trans rfl, hadds, hdetaches⟩

/-- On a bus with a subscription of somebody else, a tap is not attached when its second topic is no
filter, though its first subscription has been made. A conductor starts there, somebody else
subscribes, and the conductor is shut down. -/
theorem subscriptions_are_all_or_none_beside_others :
    let other : Request Receiver := ⟨"rhasspy/#", .atMostOnce, .tap 0 .textCaptured⟩
    let access : Access Receiver :=
      { carrier := .inProcess { subscriptions := Subscriptions.grant {} other } }
    let r := Registry.stock.replace .intentRecognized "rhasspy/#/intent"
    ({} : Subscriptions Receiver).Evolves access.carrier.subscriptions ∧
    (∃ f access' taps', attachTo access [] r (.withCapacity 1 .log) = (.error f, access', taps') ∧
      access'.carrier.subscriptions.issued = 2 ∧
      access'.carrier.subscriptions.entries = access.carrier.subscriptions.entries) ∧
    ∃ begun access' added carrier s',
      start access [] .never .stock .stock = (.ok begun, access') ∧ added.length = 5 ∧
      access'.carrier.subscriptions.entries = access.carrier.subscriptions.entries ++ added ∧
      carrier.subscriptions = access'.carrier.subscriptions.grant other ∧
      shutdown { begun with access := { begun.access with carrier } } 40 = (.ok (), s') ∧
      carrier.subscriptions.Drops s'.access.carrier.subscriptions added := by
  intro other access r
  have hbus : ({} : Subscriptions Receiver).Evolves access.carrier.subscriptions :=
    Subscriptions.Evolves.refl.grant other
  have hreliable : access.IsReliable := ⟨rfl, rfl⟩
  obtain ⟨hstarts, -⟩ := subscriptions_are_all_or_none hbus [] .never .stock .stock
    (.withCapacity 1 .log)
  obtain ⟨-, hattaches, -⟩ := subscriptions_are_all_or_none hbus [] .never r .stock
    (.withCapacity 1 .log)
  refine ⟨hbus, ?_, ?_⟩
  · have hfails : (attachTo access [] r (.withCapacity 1 .log)).1.isOk = false ∧
        (attachTo access [] r (.withCapacity 1 .log)).2.1.carrier.subscriptions.issued = 2 := by
      decide +kernel
    cases hattach : attachTo access [] r (.withCapacity 1 .log) with
    | mk result rest =>
      obtain ⟨access', taps'⟩ := rest
      rw [hattach] at hfails
      cases result with
      | ok handle => cases hfails.1
      | error f =>
        obtain ⟨-, hentries, -⟩ := hattaches _ _ _ hattach
        exact ⟨f, access', taps', rfl, hfails.2, hentries f rfl hreliable.removes⟩
  · obtain ⟨begun, access', hstart, -⟩ :=
      exists_start_of_open access Registry.defect?_stock rfl hreliable [] .never .stock
    obtain ⟨-, -, hok⟩ := hstarts _ _ hstart
    obtain ⟨haccess, added, hlength, hadds, hstops⟩ := hok begun rfl
    let carrier := begun.access.carrier.withSubscriptions
      (begun.access.carrier.subscriptions.grant other)
    have htable : carrier.subscriptions = begun.access.carrier.subscriptions.grant other :=
      Carrier.subscriptions_withSubscriptions ..
    have hshares : begun.Shares { begun with access := { begun.access with carrier } } := by
      refine ⟨?_, rfl⟩
      rw [htable]
      exact Subscriptions.Evolves.refl.grant other
    have hreliable' : begun.access.IsReliable := isReliable_of_start hstart hreliable
    obtain ⟨s', hshutdown⟩ := exists_shutdown
      (s := { begun with access := { begun.access with carrier } })
      (isStart_of_start hstart).unstopped hreliable' 40
    refine ⟨begun, access', added, carrier, s', hstart, hlength, hadds.entries, ?_, hshutdown, ?_⟩
    · rw [htable, haccess]
    · exact hstops _ s' hshares (.inl ⟨40, hshutdown⟩)

end Site

end VoiceTurn.Conductor
