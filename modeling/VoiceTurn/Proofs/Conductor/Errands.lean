import VoiceTurn.Proofs.Conductor.Moves
import VoiceTurn.Proofs.Conductor.Stopping

/-!
# Coming to an end

A worker that has been told to stop does so after a while. What is left to do at its site
(`Site.errands`) gets less with every step, with every round, and when the clock runs to the end of
a pause. So whoever waits for the worker to stop does not wait forever (`Site.endsWait`).
-/

namespace VoiceTurn

/-! ## What can be read -/

namespace Line.Link

variable {ρ : Type} (l : Link ρ)

lemma canRead_readArrived (h : l.canRead = true) : l.readArrived.2.canRead = false := by
  have hreads := reads_readArrived h
  generalize l.readArrived.2 = l' at hreads ⊢
  cases hreads with
  | noRoom | ends => rfl
  | goesOn framer hroom => simp [canRead, hroom]

end Line.Link

namespace Bus.Carrier

variable {ρ : Type} (c : Carrier ρ)

lemma isSome_readArrived?_publish (m : Message) :
    (c.publish m).2.readArrived?.isSome = c.readArrived?.isSome := by
  cases c with
  | inProcess b => rfl
  | link l =>
    simp only [publish, readArrived?, (l.keeps_publish m).canRead]
    split_ifs <;> rfl

lemma readArrived?_of_readArrived? {c c' : Carrier ρ} {ds : List (Delivery ρ)}
    (h : c.readArrived? = some (ds, c')) : c'.readArrived? = none := by
  obtain ⟨l, rfl, hcan, rfl⟩ := exists_link_of_readArrived? h
  simp only [readArrived?, l.canRead_readArrived hcan, Bool.false_eq_true, if_false]

end Bus.Carrier

namespace Conductor

/-! ## What becomes of a wait -/

namespace World

variable {σ : Type} [World σ] {isDone : σ → Bool} {steps : Nat} {s r : σ}
  (hround : finishRound steps s = r) (rounds : Nat)
include hround

lemma await_of_isDone (hdone : isDone r = true) : await isDone steps (rounds + 1) s = r := by
  simp only [await, hround, hdone, if_true]

/-- An `await` goes on without the clock as long as there is something to do. -/
lemma await_of_step (hdone : isDone r = false) (hstep : (step? r).isSome = true) :
    await isDone steps (rounds + 1) s = await isDone steps rounds r := by
  simp only [await, hround, hdone, hstep, if_true, Bool.false_eq_true, if_false]

lemma await_of_timer (hdone : isDone r = false) (hstep : step? r = none) {t : Nat}
    (htimer : timer? r = some t) : await isDone steps (rounds + 1) s =
      await isDone steps rounds (setClock r (max t (now r))) := by
  simp only [await, hround, hdone, hstep, htimer, Option.isSome_none, Bool.false_eq_true, if_false]

/-- An `await` without a `timer?` ends. -/
lemma await_of_no_timer (hdone : isDone r = false) (hstep : step? r = none)
    (htimer : timer? r = none) : await isDone steps (rounds + 1) s = r := by
  simp only [await, hround, hdone, hstep, htimer, Option.isSome_none, Bool.false_eq_true, if_false]

end World

namespace Site

variable {s s' : Site}

/-! ## What is left to do -/

def isPausing (s : Site) : Bool := s.pausedUntil.any (s.now < ·)

/-- What is left for the worker to do before it `isStopped`: the commands at hand, and to stop. -/
def load (s : Site) : Nat := s.worker.pending.length + if s.worker.isStopped then 0 else 1

/-- What is left to do for everybody but the worker: the records of the taps, the parts that are
`ready`, a share that has been used up, and the parts that have `yielded`. -/
def rota (s : Site) : Nat ×ₗ Nat ×ₗ Nat ×ₗ Nat :=
  toLex (Tap.backlogs s.taps, toLex (s.ready.length + s.yielded.length,
    toLex (if s.left = 0 then 1 else 0, s.yielded.length)))

/-- The measure of a site whose worker has been told to stop, the most pressing first: what has
arrived, the `load`, the attempts at the next command, the pause before the next attempt, and the
`rota`. -/
def errands (s : Site) : Nat ×ₗ Nat ×ₗ Nat ×ₗ Nat ×ₗ (Nat ×ₗ Nat ×ₗ Nat ×ₗ Nat) :=
  toLex (if s.access.carrier.readArrived?.isSome then 1 else 0, toLex (s.load,
    toLex (s.retry.attempts - s.tried, toLex (if s.isPausing then 1 else 0, s.rota))))

lemma errands_lt_of_load
    (hreads : s'.access.carrier.readArrived?.isSome = s.access.carrier.readArrived?.isSome)
    (hload : s'.load < s.load) : s'.errands < s.errands := by
  show toLex (_, _) < toLex (_, _)
  rw [hreads]
  exact .right _ (.left _ _ hload)

/-- When the `rota` gets less and the worker is not concerned, the `errands` get less. -/
lemma errands_lt_of_rota {ready yielded : List Part} {left : Nat} {taps : List Tap}
    (h : { s with ready, yielded, left, taps }.rota < s.rota) :
    { s with ready, yielded, left, taps }.errands < s.errands :=
  .right _ (.right _ (.right _ (.right _ h)))

/-! ## Steps -/

lemma errands_readStep? (hstep : s.readStep? = some s') : s'.errands < s.errands := by
  unfold readStep? at hstep
  obtain ⟨⟨ds, carrier⟩, hread, rfl⟩ := Option.map_eq_some_iff.1 hstep
  have haccess := (delivered_deliverAll { s with access := { s.access with carrier } } ds).access
  refine .left _ _ ?_
  simp [haccess, hread, Bus.Carrier.readArrived?_of_readArrived? hread]

section
variable {c : Command} {topic : String} {rest : List (Command × String)} {ending : Option Phase}
  (hjob : s.worker.job = .sending (c, topic) rest ending)
include hjob

/-- However sending a command went (`Worker.sent`), it is off the list. -/
lemma load_sent (result : Except Bus.Failure Unit)
    (hworker : s'.worker = (s.worker.sent result).1) : s'.load < s.load := by
  obtain ⟨-, hpending, -, hstopped⟩ := Worker.sent_spec hjob result
  have hgoing : s.worker.isStopped = false := by rw [Worker.isStopped, hjob]
  have hbefore : s.worker.pending = (c, topic) :: rest := by rw [Worker.pending, hjob]
  rw [load, load, hworker, hpending, hstopped, hgoing, hbefore, List.length_cons]
  exact Nat.lt_succ_self _

lemma errands_attempt (left : Nat) (m : Bus.Message) :
    ({ s with left }.attempt m).errands < s.errands := by
  have hreads := s.access.carrier.isSome_readArrived?_publish m
  unfold attempt
  generalize s.access.carrier.publish m = answer at hreads
  obtain ⟨result, carrier⟩ := answer
  cases result with
  | ok ds =>
    have hdelivered := delivered_deliverAll { s with
      access := { s.access with carrier }, pausedUntil := none, left } ds
    refine errands_lt_of_load ?_ (load_sent hjob (.ok ()) rfl)
    exact (congrArg (fun a => a.carrier.readArrived?.isSome) hdelivered.access).trans hreads
  | error f =>
    simp only
    cases hpause : s.retry.pauseAfter? (s.tried + 1) f with
    | none => exact errands_lt_of_load hreads (load_sent hjob (.error f) rfl)
    | some pause =>
      -- the command stays, and there is an attempt less
      obtain ⟨-, hattempts, -⟩ := Bus.Retry.pauseAfter?_eq_some_iff.1 hpause
      show toLex (_, _) < toLex (_, _)
      rw [hreads]
      refine .right _ (.right _ (.left _ _ ?_))
      show s.retry.attempts - (s.tried + 1) < s.retry.attempts - s.tried
      omega

end

/-- Each `workStep?` of a worker that has been told to stop leaves fewer `errands`. -/
lemma errands_workStep? (hordered : s.isStopping = true) (hstep : s.workStep? = some s') :
    s'.errands < s.errands := by
  unfold workStep? at hstep
  cases hjob : s.worker.job with
  | stopped => simp [hjob] at hstep
  | waiting =>
    simp only [hjob, lookStep?, hordered, if_true] at hstep
    cases hstep
    refine errands_lt_of_load rfl ?_
    simp [load, Worker.pending, Worker.isStopped, Worker.stop, hjob]
  | sending next rest ending =>
    have hmessage : s.worker.message? = some ⟨next.2, next.1.payload, s.worker.qos⟩ := by
      simp only [Worker.message?, hjob]
    simp only [hjob, hmessage] at hstep
    cases hpaused : s.pausedUntil with
    | none =>
      simp only [hpaused] at hstep
      cases hstep
      exact errands_attempt hjob s.left _
    | some t =>
      simp only [hpaused] at hstep
      split_ifs at hstep
      cases hstep
      exact errands_attempt hjob (s.left - 1) _

lemma rota_rest {p : Part} {ps : List Part} (hready : s.ready = p :: ps) :
    { s with ready := ps, left := share }.rota < s.rota := by
  refine .right _ (.left _ _ ?_)
  show ps.length + _ < s.ready.length + _
  rw [hready, List.length_cons]
  exact Nat.add_lt_add_right (Nat.lt_succ_self _) _

lemma rota_giveWay {p : Part} {ps : List Part} (hready : s.ready = p :: ps) (hleft : s.left = 0) :
    { s with ready := ps, yielded := s.yielded ++ [p], left := share }.rota < s.rota := by
  have hawake : ps.length + (s.yielded ++ [p]).length = s.ready.length + s.yielded.length := by
    rw [hready, List.length_append, List.length_singleton, List.length_cons]
    omega
  have hfresh : (if share = 0 then 1 else 0) < if s.left = 0 then 1 else 0 := by
    rw [if_pos hleft]
    decide
  show toLex (_, toLex (_, _)) < toLex (_, toLex (_, _))
  rw [hawake]
  exact .right _ (.right _ (.left _ _ hfresh))

/-- Each `step?` of a site whose worker has been told to stop leaves fewer `errands`. -/
lemma errands_step? (hordered : s.isStopping = true) (hstep : s.step? = some s') :
    s'.errands < s.errands := by
  cases steps_of_step? hstep with
  | read hread => exact errands_readStep? hread
  | giveWay hready hleft => exact errands_lt_of_rota (rota_giveWay hready hleft)
  | @goOn p ps _ hready hpart =>
    cases p with
    | worker => exact errands_workStep? hordered hpart
    | tap index =>
      obtain ⟨t, htap, t', htap', rfl⟩ := tapStep?_eq_some hpart
      exact errands_lt_of_rota (.left _ _ (Tap.backlogs_set htap (Tap.backlog_step htap')))
  | rest hready => exact errands_lt_of_rota (rota_rest hready)

lemma errands_nextRound? (hround : s.nextRound? = some s') : s'.errands < s.errands := by
  obtain ⟨hyielded, rfl⟩ := nextRound?_eq_some_iff.1 hround
  refine errands_lt_of_rota ?_
  have hawake : (s.ready ++ s.yielded).length + ([] : List Part).length =
      s.ready.length + s.yielded.length := by
    rw [List.length_append, List.length_nil, Nat.add_zero]
  show toLex (_, toLex (_, toLex (_, _))) < toLex (_, toLex (_, toLex (_, _)))
  rw [hawake]
  exact .right _ (.right _ (.right _ (List.length_pos_iff.2 hyielded)))

/-- When the clock has run to `pausedUntil`, the pause is over. -/
lemma errands_setClock {t : Nat} (hpaused : s.pausedUntil = some t) (hahead : s.now < t) :
    (s.setClock t).errands < s.errands := by
  obtain ⟨ready, hready⟩ := wake_eq { s with now := t } .worker
  rw [setClock, hready]
  refine .right _ (.right _ (.right _ (.left _ _ ?_)))
  simp [isPausing, hpaused, hahead]

/-! ## Waiting -/

/-- A `finishRound` comes to an end, if it is not cut short by the bound on its steps. -/
lemma exists_finishRound (hordered : s.isStopping = true) (halert : s.IsAlert) :
    ∃ enough e log, (∀ steps ≥ enough, World.finishRound steps s = (World.nextRound? e).getD e) ∧
      e.step? = none ∧ e.errands ≤ s.errands ∧ s.Reaches log e := by
  generalize herrands : s.errands = errands
  induction errands using WellFoundedLT.induction generalizing s with
  | ind errands ih =>
    subst herrands
    cases hstep : s.step? with
    | none =>
      refine ⟨1, s, [], fun steps hsteps => ?_, hstep, le_rfl, .start⟩
      obtain ⟨steps, rfl⟩ := Nat.exists_eq_add_of_le' hsteps
      have hnone : World.step? s = none := hstep
      simp only [World.finishRound, hnone]
    | some s' =>
      have hless := errands_step? hordered hstep
      obtain ⟨log, hlog⟩ := exists_reaches_step? halert hstep
      obtain ⟨enough, e, more, hfinish, hend, hle, hmore⟩ :=
        ih _ hless (hlog.windsDown hordered).isStopping (hlog.isAlert halert) rfl
      refine ⟨enough + 1, e, log ++ more, fun steps hsteps => ?_, hend, hle.trans hless.le,
        hlog.trans hmore⟩
      obtain ⟨steps, rfl⟩ := Nat.exists_eq_add_of_le' hsteps
      have hsome : World.step? s = some s' := hstep
      rw [← hfinish (steps + enough) (Nat.le_add_left _ _), ← Nat.add_assoc]
      simp only [World.finishRound, hsome]

/-- What has `yielded` goes on in the next round. -/
lemma isSome_step?_of_nextRound? (hround : s.nextRound? = some s') : s'.step?.isSome = true := by
  obtain ⟨hyielded, rfl⟩ := nextRound?_eq_some_iff.1 hround
  rw [Option.isSome_iff_ne_none, ne_eq, step?_eq_none_iff]
  exact fun hnone => hyielded (List.append_eq_nil_iff.1 hnone.2).2

lemma timer?_of_isStopped (h : s.worker.isStopped = true) : s.timer? = none := by
  unfold Worker.isStopped at h
  unfold timer?
  cases hjob : s.worker.job with
  | stopped => rfl
  | waiting | sending => simp [hjob] at h

/-- When the worker has not stopped and nothing can be done, it pauses, and `timer?` is the end of
the pause. -/
lemma exists_timer? (hordered : s.isStopping = true) (halert : s.IsAlert) (hstep : s.step? = none)
    (hround : s.nextRound? = none) (hgoing : s.worker.isStopped = false) :
    ∃ t, s.timer? = some t ∧ s.pausedUntil = some t ∧ s.now < t := by
  obtain ⟨hwaiting, hsending⟩ := workStep?_eq_none_iff.1 (halert.workStep?_eq_none hstep hround)
  unfold timer?
  unfold Worker.isStopped at hgoing
  cases hjob : s.worker.job with
  | stopped => simp [hjob] at hgoing
  | waiting =>
    have hunordered := (hwaiting hjob).1
    rw [hordered] at hunordered
    cases hunordered
  | sending next rest ending =>
    obtain ⟨t, hpaused, hahead⟩ := hsending (by simp [Worker.pending, hjob])
    exact ⟨t, hpaused, hpaused, hahead⟩

/-- Whether an `await` with enough steps and rounds comes to what `isDone`, or to a worker that
`isStopped`. -/
def EndsWait (isDone : Site → Bool) (s : Site) : Prop :=
  ∃ enough, ∀ steps ≥ enough, ∀ rounds ≥ enough,
    isDone (World.await isDone steps rounds s) = true ∨
      (World.await isDone steps rounds s).worker.isStopped = true

namespace EndsWait

variable {isDone : Site → Bool} (enough : Nat)

lemma of_eq (hs' : isDone s' = true ∨ s'.worker.isStopped = true)
    (heq : ∀ steps ≥ enough, ∀ rounds, World.await isDone steps (rounds + 1) s = s') :
    s.EndsWait isDone := by
  refine ⟨enough + 1, fun steps hsteps rounds hrounds => ?_⟩
  obtain ⟨rounds, rfl⟩ := Nat.exists_eq_add_of_le' (Nat.le_of_add_left_le hrounds)
  rwa [heq steps (Nat.le_of_succ_le hsteps) rounds]

lemma of_round (h : s'.EndsWait isDone)
    (heq : ∀ steps ≥ enough, ∀ rounds, World.await isDone steps (rounds + 1) s =
      World.await isDone steps rounds s') : s.EndsWait isDone := by
  obtain ⟨enough', hends⟩ := h
  refine ⟨max enough enough' + 1, fun steps hsteps rounds hrounds => ?_⟩
  obtain ⟨rounds, rfl⟩ := Nat.exists_eq_add_of_le' (Nat.le_of_add_left_le hrounds)
  rw [heq steps (by omega) rounds]
  exact hends steps (by omega) rounds (by omega)

end EndsWait

/-- Once the worker has been told to stop, every `await` ends: with what `isDone`, or with a worker
that `isStopped`. -/
lemma endsWait (isDone : Site → Bool) (hordered : s.isStopping = true) (halert : s.IsAlert) :
    s.EndsWait isDone := by
  generalize herrands : s.errands = errands
  induction errands using WellFoundedLT.induction generalizing s with
  | ind errands ih =>
    subst herrands
    obtain ⟨enough, e, log, hfinish, hend, hle, hlog⟩ := exists_finishRound hordered halert
    have hordered' := (hlog.windsDown hordered).isStopping
    have halert' := hlog.isAlert halert
    have hless {r : Site} {more : List Incident} (hmore : e.Reaches more r)
        (hless : r.errands < e.errands) : r.EndsWait isDone :=
      ih _ (hless.trans_le hle) (hmore.windsDown hordered').isStopping (hmore.isAlert halert') rfl
    cases hround : e.nextRound? with
    | some next =>
      -- something has given way, so there is something to do in the next round
      have hnext : (World.nextRound? e).getD e = next := by
        rw [show World.nextRound? e = some next from hround, Option.getD_some]
      have hround' (steps : Nat) (hsteps : enough ≤ steps) : World.finishRound steps s = next :=
        (hfinish steps hsteps).trans hnext
      cases hdone : isDone next with
      | true =>
        exact .of_eq enough (.inl hdone) fun steps hsteps rounds =>
          World.await_of_isDone (hround' steps hsteps) rounds hdone
      | false =>
        obtain ⟨more, hmore⟩ := exists_reaches_nextRound? halert' hround
        exact .of_round enough (hless hmore (errands_nextRound? hround)) fun steps hsteps rounds =>
          World.await_of_step (hround' steps hsteps) rounds hdone
            (isSome_step?_of_nextRound? hround)
    | none =>
      have hnone : (World.nextRound? e).getD e = e := by
        rw [show World.nextRound? e = none from hround, Option.getD_none]
      have hround' (steps : Nat) (hsteps : enough ≤ steps) : World.finishRound steps s = e :=
        (hfinish steps hsteps).trans hnone
      cases hdone : isDone e with
      | true =>
        exact .of_eq enough (.inl hdone) fun steps hsteps rounds =>
          World.await_of_isDone (hround' steps hsteps) rounds hdone
      | false =>
        cases hstopped : e.worker.isStopped with
        | true =>
          have htimer : World.timer? e = none := timer?_of_isStopped hstopped
          exact .of_eq enough (.inr hstopped) fun steps hsteps rounds =>
            World.await_of_no_timer (hround' steps hsteps) rounds hdone hend htimer
        | false =>
          obtain ⟨t, htimer, hpaused, hahead⟩ :=
            exists_timer? hordered' halert' hend hround hstopped
          have hclock : e.Happens [] (e.setClock t) := by
            refine happens_setClock hahead.le fun d hd => ?_
            rw [htimer] at hd
            rw [Option.mem_some_iff.1 hd]
            exact Nat.le_max_left _ _
          refine .of_round enough (hless hclock.reaches (errands_setClock hpaused hahead))
            fun steps hsteps rounds => ?_
          have hmax : max t (World.now e) = t := Nat.max_eq_left hahead.le
          have hawait := World.await_of_timer (hround' steps hsteps) rounds hdone hend htimer
          rwa [hmax] at hawait

end Site

end Conductor

end VoiceTurn
