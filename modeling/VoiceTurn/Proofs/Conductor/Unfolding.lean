import VoiceTurn.Conductor.Host
import VoiceTurn.Proofs.Conductor.Deeds
import VoiceTurn.Proofs.Conductor.Host
import VoiceTurn.Proofs.Conductor.Stopping

/-!
# The schedules of a host

The reader, the worker, the taps and the host take turns in some order, each of them takes its time,
and the clock goes on in the meantime. `Host.Happens` says what each of them can do, and
`Host.Unfolds` what can become of a host; whatever a host does by itself, and whatever is done to
it, is among that (`Host.exists_unfolds_operation`). A host that starts stays in order
(`Host.Unfolds.isInOrder`): its queue accounts for what has come, and it detaches everything only
when the worker has stopped.
-/

namespace VoiceTurn.Conductor

open Bus (Access Carrier Delivery Message)
open Line (Link)

namespace Site

variable {s s' : Site}

/-- From `s` to `s'` nothing has happened that concerns the worker. -/
structure Undisturbed (s s' : Site) : Prop where
  worker : s'.worker = s.worker
  inbox : s'.inbox = s.inbox
  isStopping : s'.isStopping = s.isStopping

lemma undisturbed_wake (s : Site) (p : Part) : s.Undisturbed (s.wake p) :=
  ⟨worker_wake s p, inbox_wake s p, isStopping_wake s p⟩

lemma Undisturbed.isLatched (h : s.Undisturbed s') (hlatched : s.IsLatched) : s'.IsLatched := by
  constructor
  · rw [h.worker, h.isStopping]
    exact hlatched.ordered
  · rw [h.worker, h.inbox]
    exact hlatched.closed
  · rw [h.inbox]
    exact hlatched.deserted

/-- It makes no difference to `deliverAll` whether the bus has gone on already. -/
lemma deliverAll_withAccess (s : Site) (access : Access Receiver) (ds : List (Delivery Receiver)) :
    { s with access }.deliverAll ds = { s.deliverAll ds with access } := by
  induction ds generalizing s with
  | nil => rfl
  | cons d ds ih =>
    have hdeliver : { s with access }.deliver d = { s.deliver d with access } := by
      unfold deliver wake
      cases d.receiver <;> simp only <;> split_ifs <;> rfl
    show ({ s with access }.deliver d).deliverAll ds = { (s.deliver d).deliverAll ds with access }
    rw [hdeliver, ih]

end Site

namespace Host

/-! ## What happens at a host -/

/-- What can happen at a host: the reader hands a message over before it has seen the end of the
input, the link or the worker goes on, the others take turns, the clock is set, the host is told to
stop, and it goes on to its next stage. -/
inductive Happens (h : Host) : List Incident → Host → Prop where
  | deliver (m : Message) (hopen : h.isInputClosed = false) :
    h.Happens (h.site.inbox.incidentsOf (h.site.access.carrier.subscriptions.deliveries m))
      { h with site := h.site.deliverAll (h.site.access.carrier.subscriptions.deliveries m) }
  | link {l : Link Receiver} (l' : Link Receiver) (hlink : h.site.access.carrier = .link l)
      (hsubscriptions : l'.subscriptions = l.subscriptions)
      (hclosed : l.isClosed = true → l'.isClosed = true) :
    h.Happens []
      { h with site := { h.site with access := { h.site.access with carrier := .link l' } } }
  | work {log : List Incident} {site : Site} (hstep : h.site.workStep? = some site)
      (hworks : h.site.Works log site) : h.Happens log { h with site }
  | turn (ready yielded : List Part) (left : Nat) (taps : List Tap) :
    h.Happens [] { h with site := { h.site with ready, yielded, left, taps } }
  | clock (t : Nat) : h.Happens [] { h with site := h.site.setClock t }
  | tell : h.Happens [] { h with isToldToStop := true }
  | stage {h' : Host} (hstage : h.stageStep? = some h') : h.Happens [] h'

/-- What can become of a host, with the `Incident`s on the way. -/
inductive Unfolds (start : Host) : List Incident → Host → Prop where
  | start : Unfolds start [] start
  | next {log more : List Incident} {h h' : Host} (hunfolds : Unfolds start log h)
      (hnext : h.Happens more h') : Unfolds start (log ++ more) h'

variable {start h h' : Host} {log more : List Incident}

lemma Unfolds.trans (hunfolds : start.Unfolds log h) (hmore : h.Unfolds more h') :
    start.Unfolds (log ++ more) h' := by
  induction hmore with
  | start => rwa [List.append_nil]
  | next _ hnext ih =>
    rw [← List.append_assoc]
    exact ih.next hnext

lemma Happens.unfolds (hhappens : h.Happens more h') : h.Unfolds more h' :=
  Unfolds.start.next hhappens

/-! ## Stages -/

/-- From `h` to `h'` the worker, which has stopped, is left alone, and the bus but for its
subscriptions. -/
structure Detaches (h h' : Host) : Prop where
  site : h.site.Undisturbed h'.site
  carrier : ∃ t, h'.site.access.carrier = h.site.access.carrier.withSubscriptions t

lemma detaches_release (h : Host) : h.Detaches h.release := by
  obtain ⟨gone, drill, -, hgone, -⟩ := h.site.access.unsubscribeAll_spec h.site.subscriptions
  have hunsubscribe : h.site.unsubscribe.2 = { h.site with
      access := ⟨h.site.access.carrier.withSubscriptions
        (h.site.access.carrier.subscriptions.removeAll gone), drill⟩
      subscriptions := [] } := by
    rw [← hgone]
    rfl
  have hsite : h.site.Undisturbed h.site.unsubscribe.2 := ⟨rfl, rfl, rfl⟩
  unfold release
  cases hresult : h.site.unsubscribe with
  | mk result site =>
    obtain rfl : h.site.unsubscribe.2 = site := by rw [hresult]
    cases result with
    | error refusal => exact ⟨hsite, ⟨_, by rw [hunsubscribe]⟩⟩
    | ok u =>
      cases h.tap with
      | none => exact ⟨hsite, ⟨_, by rw [hunsubscribe]⟩⟩
      | some handle =>
        obtain ⟨ready, hreleased⟩ := h.site.unsubscribe.2.releaseTap_eq handle
        obtain ⟨gone', drill', -, hgone', -⟩ :=
          h.site.unsubscribe.2.access.unsubscribeAll_spec handle.subscriptions
        have hcarrier : ∃ t, (h.site.unsubscribe.2.access.unsubscribeAll
            handle.subscriptions).2.carrier = h.site.access.carrier.withSubscriptions t := by
          rw [hgone', hunsubscribe]
          exact ⟨_, Carrier.withSubscriptions_withSubscriptions _ _ _⟩
        simp only [hreleased]
        cases (h.site.unsubscribe.2.access.unsubscribeAll handle.subscriptions).1 with
        | ok u => exact ⟨⟨rfl, rfl, rfl⟩, hcarrier⟩
        | error f => exact ⟨⟨rfl, rfl, rfl⟩, hcarrier⟩

def isDetaching (h : Host) : Bool :=
  match h.stage with
  | .running | .stopping => false
  | .flushing | .finished _ => true

/-- Everything that `stageStep?` can do: tell the worker to stop, or detach everything when it
has. -/
lemma stageStep?_cases (hstage : h.stageStep? = some h') :
    (h' = { h with site := h.site.orderStop, stage := .stopping }) ∨
    (h.Detaches h' ∧ (h.isDetaching = false → h.site.worker.isStopped = true)) := by
  unfold stageStep? at hstage
  cases hnow : h.stage with
  | running =>
    simp only [hnow] at hstage
    split_ifs at hstage
    cases hstage
    exact .inl rfl
  | stopping =>
    simp only [hnow] at hstage
    split_ifs at hstage with hstopped
    cases hstage
    exact .inr ⟨h.detaches_release, fun _ => hstopped⟩
  | flushing =>
    simp only [hnow] at hstage
    split_ifs at hstage
    cases hstage
    refine .inr ⟨⟨⟨rfl, rfl, rfl⟩, ⟨_, (Carrier.withSubscriptions_subscriptions _).symm⟩⟩,
      fun h => ?_⟩
    simp [isDetaching, hnow] at h
  | finished result => simp [hnow] at hstage

/-- A `World.step?` of a host is a `step?` of its site, or its `stageStep?`. -/
lemma step?_cases (hstep : World.step? h = some h') :
    (∃ site, h.site.step? = some site ∧ h' = { h with site }) ∨ h.stageStep? = some h' := by
  have hunfolded : h.step? = some h' := hstep
  unfold step? at hunfolded
  split at hunfolded
  · cases hunfolded
  · cases hsite : h.site.step? with
    | some site =>
      rw [hsite] at hunfolded
      exact .inl ⟨site, rfl, (Option.some.inj hunfolded).symm⟩
    | none =>
      rw [hsite] at hunfolded
      exact .inr hunfolded

/-! ## What stays in order -/

/-- What `Happens` at a host happens at its site, or leaves the worker `Undisturbed`. -/
lemma Happens.site_cases (hhappens : h.Happens more h') :
    h.site.Happens more h'.site ∨ more = [] ∧ h.site.Undisturbed h'.site := by
  cases hhappens with
  | deliver m => exact .inl (.deliver m)
  | work hstep hworks => exact .inl (.work hstep hworks)
  | link | turn | tell => exact .inr ⟨rfl, rfl, rfl, rfl⟩
  | clock t =>
    have hwake := Site.undisturbed_wake { h.site with now := t } .worker
    exact .inr ⟨rfl, hwake.worker, hwake.inbox, hwake.isStopping⟩
  | stage hstage =>
    rcases stageStep?_cases hstage with rfl | ⟨hdetaches, -⟩
    · exact .inl .order
    · exact .inr ⟨rfl, hdetaches.site⟩

/-- A host in order: its queue `Accounts` for what has come, its worker `KeepsUp` with what it has
turned to, and everything is detached only when the worker has stopped. -/
structure IsInOrder (capacity : Nat) (log : List Incident) (h : Host) : Prop where
  latched : h.site.IsLatched
  accounts : h.site.inbox.Accounts capacity log
  keepsUp : h.site.KeepsUp log
  detaching : h.isDetaching = true → h.site.worker.isStopped = true

lemma Happens.isStopped (hhappens : h.Happens more h') (hlatched : h.site.IsLatched)
    (hbefore : h.isDetaching = true → h.site.worker.isStopped = true)
    (hdetaching : h'.isDetaching = true) : h'.site.worker.isStopped = true := by
  have hstopped : h.site.worker.isStopped = true := by
    cases hhappens with
    | deliver | link | work | turn | clock | tell => exact hbefore hdetaching
    | stage hstage =>
      rcases stageStep?_cases hstage with rfl | ⟨-, hafter⟩
      · cases hdetaching
      · cases hnow : h.isDetaching with
        | false => exact hafter hnow
        | true => exact hbefore hnow
  -- a worker that has stopped stays as it is
  rcases hhappens.site_cases with hsite | ⟨-, hsite⟩
  · rw [(hsite.rests hlatched hstopped).2.worker, hstopped]
  · rw [hsite.worker, hstopped]

/-- What leaves the worker `Undisturbed` keeps a host in order. -/
lemma IsInOrder.undisturbed {capacity : Nat} (hinOrder : h.IsInOrder capacity log)
    (hsite : h.site.Undisturbed h'.site)
    (hdetaching : h'.isDetaching = true → h'.site.worker.isStopped = true) :
    h'.IsInOrder capacity log := by
  refine ⟨hsite.isLatched hinOrder.latched, ?_, ?_, hdetaching⟩
  · rw [hsite.inbox]
    exact hinOrder.accounts
  · rw [Site.KeepsUp, hsite.worker]
    exact hinOrder.keepsUp

lemma IsInOrder.happens {capacity : Nat} (hinOrder : h.IsInOrder capacity log)
    (hhappens : h.Happens more h') : h'.IsInOrder capacity (log ++ more) := by
  have hdetaching := hhappens.isStopped hinOrder.latched hinOrder.detaching
  rcases hhappens.site_cases with hsite | ⟨rfl, hsite⟩
  · exact ⟨hinOrder.latched.happens hsite, hsite.accounts hinOrder.accounts,
      hinOrder.keepsUp.happens hsite, hdetaching⟩
  · rw [List.append_nil]
    exact hinOrder.undisturbed hsite hdetaching

lemma Unfolds.isInOrder {capacity : Nat} (hunfolds : start.Unfolds log h)
    (hstart : start.IsInOrder capacity []) : h.IsInOrder capacity log := by
  induction hunfolds with
  | start => exact hstart
  | next _ hnext ih => exact ih.happens hnext

lemma undisturbed_mapLink (h : Host) (f : Link Receiver → Link Receiver) :
    h.site.Undisturbed (h.mapLink f).site ∧ (h.mapLink f).stage = h.stage := by
  unfold mapLink
  cases h.site.access.carrier with
  | inProcess b => exact ⟨⟨rfl, rfl, rfl⟩, rfl⟩
  | link l => exact ⟨⟨rfl, rfl, rfl⟩, rfl⟩

/-- A host that starts is a site that `IsStart`, with its link started. -/
lemma exists_of_start {settings : Settings} {link : Link Receiver}
    (hstart : Host.start settings link = .ok start) :
    ∃ r site tap, site.IsStart r settings ∧ start = mapLink { site, tap } fun l => l.start.2 := by
  unfold Host.start at hstart
  cases hregistry : settings.topics.registry with
  | error f =>
    rw [hregistry] at hstart
    cases hstart
  | ok r =>
    simp only [hregistry] at hstart
    split at hstart
    · cases hstart
    · next tap access taps htap =>
      split at hstart
      · cases hstart
      · next site access' hsite =>
        cases hstart
        exact ⟨r, site, tap, Site.isStart_of_start hsite, rfl⟩

lemma isInOrder_of_start {settings : Settings} {link : Link Receiver}
    (hstart : Host.start settings link = .ok start) :
    start.IsInOrder (max settings.turn.queueCapacity.toNat 1) [] := by
  obtain ⟨r, site, tap, hisStart, rfl⟩ := exists_of_start hstart
  obtain ⟨hsite, hstage⟩ := undisturbed_mapLink { site, tap } fun l => l.start.2
  have hbegun : IsInOrder (max settings.turn.queueCapacity.toNat 1) [] { site, tap } := by
    refine ⟨hisStart.isLatched, ?_, hisStart.keepsUp, nofun⟩
    rw [hisStart.inbox]
    exact Inbox.accounts_withCapacity _
  refine hbegun.undisturbed hsite fun hdetaching => ?_
  rw [isDetaching, hstage] at hdetaching
  cases hdetaching

/-! ## What a host does by itself -/

/-- Something that is done by a host or to it: a `step?`, a `nextRound?`, a clock that is set, an
order to stop, or what concerns the link from outside, as when bytes arrive, the input ends, or the
output is going to fail. -/
inductive Operation (h : Host) : Host → Prop where
  | step {h' : Host} (hstep : World.step? h = some h') : h.Operation h'
  | nextRound {h' : Host} (hround : World.nextRound? h = some h') : h.Operation h'
  | clock (t : Nat) : h.Operation (World.setClock h t)
  | tell : h.Operation { h with isToldToStop := true }
  | mapLink (f : Link Receiver → Link Receiver)
      (hf : ∀ l, (f l).subscriptions = l.subscriptions ∧ (f l).reader = l.reader) :
    h.Operation (h.mapLink f)

lemma exists_unfolds_deliverAll (hopen : h.isInputClosed = false) (ms : List Message) :
    ∃ more, h.Unfolds more { h with
      site := h.site.deliverAll (ms.flatMap h.site.access.carrier.subscriptions.deliveries) } := by
  induction ms generalizing h with
  | nil => exact ⟨[], .start⟩
  | cons m ms ih =>
    generalize hds : h.site.access.carrier.subscriptions.deliveries m = ds
    have haccess := (h.site.delivered_deliverAll ds).access
    have hdeliver := Happens.deliver m hopen
    rw [hds] at hdeliver
    have hopen' : isInputClosed { h with site := h.site.deliverAll ds } = false := by
      rwa [isInputClosed, link?, haccess]
    obtain ⟨more, hmore⟩ := ih hopen'
    rw [haccess] at hmore
    rw [List.flatMap_cons, hds, Site.deliverAll_append]
    exact ⟨_, hdeliver.unfolds.trans hmore⟩

/-- A `readStep?` hands messages over, and after that the reader may have seen the end of the
input. -/
lemma exists_unfolds_readStep? {site : Site} (hread : h.site.readStep? = some site) :
    ∃ more, h.Unfolds more { h with site } := by
  unfold Site.readStep? at hread
  obtain ⟨⟨ds, carrier⟩, harrived, rfl⟩ := Option.map_eq_some_iff.1 hread
  obtain ⟨htable, ms, rfl⟩ := Site.readArrived?_spec harrived
  obtain ⟨l, hlink, hcan, rfl⟩ := Carrier.exists_link_of_readArrived? harrived
  -- a reader that can read has not seen the end
  obtain ⟨framer, hreader⟩ := Link.exists_reading_of_canRead hcan
  have hopen : l.isClosed = false := by
    rw [Link.isClosed, hreader]
  have hclosed : h.isInputClosed = false := by
    simp only [isInputClosed, link?, hlink, hopen]
  obtain ⟨more, hmore⟩ := exists_unfolds_deliverAll hclosed ms
  generalize ms.flatMap h.site.access.carrier.subscriptions.deliveries = ds at hmore ⊢
  have haccess := (h.site.delivered_deliverAll ds).access
  rw [hlink] at htable
  have hnext : Happens { h with site := h.site.deliverAll ds } []
      { h with site := { h.site.deliverAll ds with access := { h.site.access with
        carrier := .link l.readArrived.2 } } } := by
    have hlinked := Happens.link (h := { h with site := h.site.deliverAll ds }) l.readArrived.2
      (by rw [haccess, hlink]) htable fun hended => by
        rw [hopen] at hended
        cases hended
    rwa [haccess] at hlinked
  rw [← Site.deliverAll_withAccess] at hnext
  exact ⟨_, hmore.next hnext⟩

lemma exists_unfolds_siteStep? {site : Site} (hstep : h.site.step? = some site) :
    ∃ more, h.Unfolds more { h with site } := by
  cases Site.steps_of_step? hstep with
  | read hread => exact exists_unfolds_readStep? hread
  | @goOn p ps _ hready hpart =>
    cases p with
    | worker =>
      obtain ⟨more, hworks⟩ := Site.exists_works hpart
      exact ⟨_, (Happens.work hpart hworks).unfolds⟩
    | tap index =>
      obtain ⟨t, -, t', -, rfl⟩ := Site.tapStep?_eq_some hpart
      exact ⟨_, (Happens.turn h.site.ready h.site.yielded (h.site.left - 1)
        (h.site.taps.set index t')).unfolds⟩
  | giveWay | rest => exact ⟨_, (Happens.turn _ _ _ h.site.taps).unfolds⟩

/-- Every `Operation` is made up of things that can happen. -/
lemma exists_unfolds_operation (hoperation : h.Operation h') : ∃ more, h.Unfolds more h' := by
  cases hoperation with
  | step hstep =>
    rcases step?_cases hstep with ⟨site, hsite, rfl⟩ | hstage
    · exact exists_unfolds_siteStep? hsite
    · exact ⟨_, (Happens.stage hstage).unfolds⟩
  | nextRound hround =>
    obtain ⟨site, hnext, rfl⟩ := Option.map_eq_some_iff.1 hround
    obtain ⟨-, rfl⟩ := Site.nextRound?_eq_some_iff.1 hnext
    exact ⟨_, (Happens.turn (h.site.ready ++ h.site.yielded) [] h.site.left h.site.taps).unfolds⟩
  | clock t => exact ⟨_, (Happens.clock t).unfolds⟩
  | tell => exact ⟨_, Happens.tell.unfolds⟩
  | mapLink f hf =>
    unfold mapLink
    cases hlink : h.site.access.carrier with
    | inProcess b => exact ⟨_, .start⟩
    | link l =>
      refine ⟨_, (Happens.link (f l) hlink (hf l).1 fun hclosed => ?_).unfolds⟩
      rwa [Link.isClosed, (hf l).2]

lemma exists_unfolds_settle (steps : Nat) (h : Host) :
    ∃ more, h.Unfolds more (World.settle steps h) := by
  induction steps generalizing h with
  | zero => exact ⟨[], .start⟩
  | succ steps ih =>
    unfold World.settle
    cases hnext : (World.step? h <|> World.nextRound? h) with
    | none => exact ⟨[], .start⟩
    | some h' =>
      obtain ⟨more, hmore⟩ := exists_unfolds_operation
        ((step_or_nextRound hnext).elim .step .nextRound)
      obtain ⟨later, hlater⟩ := ih h'
      exact ⟨_, hmore.trans hlater⟩

lemma exists_unfolds_advanceTo (target steps rounds : Nat) (h : Host) :
    ∃ more, h.Unfolds more (World.advanceTo target steps rounds h) := by
  have hset (t : Nat) (h : Host) : h.Unfolds [] (World.setClock h t) := (Happens.clock t).unfolds
  induction rounds generalizing h with
  | zero => exact ⟨[], .start⟩
  | succ rounds ih =>
    obtain ⟨more, hmore⟩ := exists_unfolds_settle steps h
    generalize hsettled : World.settle steps h = settled at hmore
    have hlast : ∃ later, h.Unfolds later
        (World.settle steps (World.setClock settled (max target (World.now settled)))) := by
      obtain ⟨later, hlater⟩ := exists_unfolds_settle steps
        (World.setClock settled (max target (World.now settled)))
      exact ⟨_, hmore.trans ((hset _ settled).trans hlater)⟩
    unfold World.advanceTo
    simp only [hsettled]
    cases World.timer? settled with
    | none => exact hlast
    | some t =>
      simp only
      split_ifs
      · obtain ⟨later, hlater⟩ := ih (World.setClock settled t)
        exact ⟨_, hmore.trans ((hset t settled).trans hlater)⟩
      · exact hlast

lemma exists_unfolds_advance (duration steps : Nat) (h : Host) :
    ∃ more, h.Unfolds more (World.advance duration steps h) :=
  exists_unfolds_advanceTo _ _ _ _

end Host

end VoiceTurn.Conductor
