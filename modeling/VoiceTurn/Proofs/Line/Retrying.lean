import Mathlib.Data.Stream.Init
import Mathlib.Tactic.Lemma
import VoiceTurn.Bus.Retry
import VoiceTurn.Line.Link
import VoiceTurn.Proofs.Line.Progress

/-!
# Lines that are tried again

A link whose messages are tried again, over an output that fails as it pleases: what the output does
with the lines that it is given, one after the other, is a stream of `Writing`s. An attempt gives
one line to the output (`publishOver`), a message makes as many attempts as the policy allows
(`runFrom_publishOver`), and each message of a series goes on where the one before has stopped
(`publishInTurn`). What a message has come to is a `Publication`.
-/

namespace VoiceTurn.Line

open Bus (Failure Message Retry)

namespace Writing

/-- What an output takes of a line. -/
def leaves (w : Writing) (line : Bytes) : Bytes :=
  match w with
  | .accepts => line
  | .breaks count => line.take count
  | .keeps => line

/-- What the sender of a line is told. -/
def result (w : Writing) (topic : String) : Except Failure Unit :=
  match w with
  | .accepts => .ok ()
  | .breaks _ => .error (.publish topic "injected write failure")
  | .keeps => .error (.publish topic "injected flush failure")

/-- Whether the whole line goes out. -/
def isWhole (w : Writing) (line : Bytes) : Bool := w.leaves line = line

/-- Whether the output does not stop inside the line. -/
def isClean (w : Writing) (line : Bytes) : Bool := w.leaves line = [] || w.isWhole line

lemma result_cases (w : Writing) (topic : String) :
    (w = .accepts ∧ w.result topic = .ok ()) ∨
      (w ≠ .accepts ∧ ∃ reason, w.result topic = .error (.publish topic reason)) := by
  cases w with
  | accepts => exact .inl ⟨rfl, rfl⟩
  | breaks count => exact .inr ⟨nofun, _, rfl⟩
  | keeps => exact .inr ⟨nofun, _, rfl⟩

/-- An output that `isClean` takes copies of a line. -/
lemma flatMap_leaves {line : Bytes} {ws : List Writing} (hws : ∀ w ∈ ws, w.isClean line = true) :
    (ws.flatMap fun w => w.leaves line) =
      (List.replicate (ws.countP fun w => w.isWhole line) line).flatten := by
  induction ws with
  | nil => rfl
  | cons w ws ih =>
    rw [List.flatMap_cons, ih fun w' hw' => hws w' (List.mem_cons_of_mem w hw'), List.countP_cons]
    by_cases hwhole : w.isWhole line = true
    · have hline : w.leaves line = line := of_decide_eq_true hwhole
      rw [if_pos hwhole, hline, List.replicate_succ, List.flatten_cons]
    · have hnone : w.leaves line = [] := by
        simpa [isClean, hwhole] using hws w List.mem_cons_self
      rw [if_neg hwhole, hnone, List.nil_append, Nat.add_zero]

end Writing

namespace Link

variable {ρ : Type}

/-- An attempt to publish a message over the next of the given `Writing`s. -/
def publishOver (m : Message) (s : Link ρ × Stream' Writing) :
    Except Failure Unit × Link ρ × Stream' Writing :=
  match write m.topic m.payload with
  | .error f => (.error f, s)
  | .ok _ =>
    let (result, b) := s.1.publishTo s.2.head m
    (result, b, s.2.tail)

/-- Publishes messages one after the other; each is tried as often as the policy allows
(`Retry.run`). -/
def publishInTurn (r : Retry) :
    List Message → Link ρ × Stream' Writing → List (Except Failure Unit) × Link ρ × Stream' Writing
  | [], s => ([], s)
  | m :: ms, s =>
    let (result, _, s) := r.run (publishOver m) s
    let (results, s) := publishInTurn r ms s
    (result :: results, s)

/-- What `nextWriting` of a link is going to be, time after time. -/
def writings (b : Link ρ) : Stream' Writing :=
  List.replicate b.brokenWrites (.breaks 0) ++ₛ
    (List.replicate b.brokenFlushes .keeps ++ₛ Stream'.const .accepts)

/-- A `publish` is a `publishOver` the `writings` of the link. -/
lemma publish_eq_publishOver (b : Link ρ) (m : Message) :
    (b.publish m).1 = (publishOver m (b, b.writings)).1 ∧
      (b.publish m).2.output = (publishOver m (b, b.writings)).2.1.output ∧
      (b.publish m).2.writings = (publishOver m (b, b.writings)).2.2 := by
  unfold publish publishOver
  cases hline : write m.topic m.payload with
  | error f => exact ⟨rfl, rfl, rfl⟩
  | ok line =>
    rcases hwrites : b.brokenWrites with _ | k
    · rcases hflushes : b.brokenFlushes with _ | k <;>
        simp [nextWriting, countWriting, publishTo, writings, hline, hwrites, hflushes,
          List.replicate_succ, Stream'.cons_append_stream]
    · simp [nextWriting, countWriting, publishTo, writings, hline, hwrites, List.replicate_succ,
        Stream'.cons_append_stream]

/-! ## One message -/

section
variable {m : Message} {line : Bytes} (hline : write m.topic m.payload = .ok line)
include hline

lemma publishOver_cons (b : Link ρ) (w : Writing) (rest : Stream' Writing) :
    publishOver m (b, .cons w rest) =
      (w.result m.topic, { b with output := b.output ++ w.leaves line }, rest) := by
  cases w <;> simp [publishOver, publishTo, hline, Writing.result, Writing.leaves]

/-- A message ends with the first line that the output `accepts`, or with the last attempt. -/
lemma runFrom_publishOver (r : Retry) {made left : Nat}
    (hattempts : made + left + 1 = max r.attempts 1) (b : Link ρ) (pattern : Stream' Writing) :
    ∃ failed w rest, .accepts ∉ failed ∧ failed.length ≤ left ∧
      (w ≠ .accepts → failed.length = left) ∧ pattern = (failed ++ [w]) ++ₛ rest ∧
      (r.runFrom (publishOver m) made left (b, pattern)).1 = w.result m.topic ∧
      (r.runFrom (publishOver m) made left (b, pattern)).2.2 =
        ({ b with output := b.output ++ (failed ++ [w]).flatMap fun w : Writing => w.leaves line },
          rest) := by
  induction left generalizing made b pattern with
  | zero =>
    obtain ⟨w, rest, rfl⟩ : ∃ w rest, pattern = Stream'.cons w rest :=
      ⟨_, _, (Stream'.eta pattern).symm⟩
    refine ⟨[], w, rest, nofun, Nat.le_refl 0, fun _ => rfl, rfl, ?_⟩
    simp [Retry.runFrom, publishOver_cons hline]
  | succ left ih =>
    obtain ⟨w, rest, rfl⟩ : ∃ w rest, pattern = Stream'.cons w rest :=
      ⟨_, _, (Stream'.eta pattern).symm⟩
    rcases w.result_cases m.topic with ⟨rfl, hresult⟩ | ⟨hw, reason, hresult⟩
    · -- the line is accepted, and the message is done with
      refine ⟨[], .accepts, rest, nofun, Nat.zero_le _, fun h => (h rfl).elim, rfl, ?_⟩
      simp [Retry.runFrom, publishOver_cons hline, hresult]
    · -- the attempt fails, and the message is tried again
      have hmore : made + 1 < r.attempts := by omega
      have hpause : r.pauseAfter? (made + 1) (.publish m.topic reason) =
          some (r.pause (made + 1)) := Retry.pauseAfter?_eq_some_iff.2 ⟨rfl, hmore, rfl⟩
      have hnext : made + 1 + left + 1 = max r.attempts 1 := by omega
      obtain ⟨failed, last, rest', hfailed, hlength, hall, hrest, hfirst, hsecond⟩ :=
        ih hnext { b with output := b.output ++ w.leaves line } rest
      refine ⟨w :: failed, last, rest', ?_, by simpa using hlength, by simpa using hall, ?_, ?_⟩
      · simp [hw.symm, hfailed]
      · rw [hrest]
        rfl
      · simp [Retry.runFrom, publishOver_cons hline, hresult, hpause, hfirst, hsecond,
          List.append_assoc]

end

end Link

structure Publication where
  message : Message
  writings : List Writing
  result : Except Failure Unit
  /-- The bytes that the message has left on the output. -/
  left : Bytes

namespace Publication

/-- A message was tried as often as the policy allows: all attempts but the last have failed, and
the last one decides. What is left on an output that `isClean` are copies of the line, one for each
time that it `isWhole`. -/
structure Follows (r : Retry) (p : Publication) (line : Bytes) : Prop where
  attempts_le : p.writings.length ≤ max r.attempts 1
  decided : ∃ failed w, p.writings = failed ++ [w] ∧ .accepts ∉ failed ∧
    (w ≠ .accepts → p.writings.length = max r.attempts 1) ∧ p.result = w.result p.message.topic
  left_eq : (∀ w ∈ p.writings, w.isClean line = true) →
    p.left = (List.replicate (p.writings.countP fun w => w.isWhole line) line).flatten
  published : p.result = .ok () → line <:+ p.left

/-- A message that cannot be written is refused before anything is given to the output; all others
have a line that they follow. -/
def Accords (r : Retry) (p : Publication) : Prop :=
  match write p.message.topic p.message.payload with
  | .error f => p.writings = [] ∧ p.result = .error f ∧ p.left = []
  | .ok line => p.Follows r line

end Publication

namespace Link

variable {ρ : Type}

lemma run_publishOver (r : Retry) (m : Message) (b : Link ρ) (pattern : Stream' Writing) :
    ∃ p : Publication, ∃ rest, p.message = m ∧ p.Accords r ∧ pattern = p.writings ++ₛ rest ∧
      (r.run (publishOver m) (b, pattern)).1 = p.result ∧
      (r.run (publishOver m) (b, pattern)).2.2 =
        ({ b with output := b.output ++ p.left }, rest) := by
  cases hline : write m.topic m.payload with
  | error f =>
    have hfinal : r.pauseAfter? 1 f = none := Retry.pauseAfter?_eq_none (isPassing_of_write hline)
    refine ⟨⟨m, [], .error f, []⟩, pattern, rfl, ?_, rfl, ?_⟩
    · simp [Publication.Accords, hline]
    · cases hleft : r.attempts - 1 <;>
        simp [Retry.run, Retry.runFrom, publishOver, hline, hleft, hfinal]
  | ok line =>
    have hattempts : 0 + (r.attempts - 1) + 1 = max r.attempts 1 := by omega
    obtain ⟨failed, w, rest, hfailed, hlength, hall, hrest, hfirst, hsecond⟩ :=
      runFrom_publishOver hline r hattempts b pattern
    refine ⟨⟨m, failed ++ [w], w.result m.topic,
      (failed ++ [w]).flatMap fun w : Writing => w.leaves line⟩, rest, rfl, ?_, hrest, hfirst,
      hsecond⟩
    rw [Publication.Accords, hline]
    refine ⟨?_, ⟨failed, w, rfl, hfailed, fun hw => ?_, rfl⟩, Writing.flatMap_leaves, fun hok => ?_⟩
    · simp only [List.length_append, List.length_singleton]
      omega
    · have := hall hw
      simp only [List.length_append, List.length_singleton]
      omega
    · obtain ⟨rfl, -⟩ | ⟨-, reason, herror⟩ := w.result_cases m.topic
      · exact ⟨failed.flatMap fun w : Writing => w.leaves line, by simp [Writing.leaves]⟩
      · rw [herror] at hok
        cases hok

/-- The output of `publishInTurn` is told by what has become of each message, one after the other
(`Publication.Accords`). -/
theorem publishInTurn_leaves_copies (r : Retry) (ms : List Message) (b : Link ρ)
    (pattern : Stream' Writing) :
    ∃ story : List Publication, ∃ rest, story.map (·.message) = ms ∧
      (publishInTurn r ms (b, pattern)).1 = story.map (·.result) ∧
      pattern = story.flatMap (·.writings) ++ₛ rest ∧
      (publishInTurn r ms (b, pattern)).2 =
        ({ b with output := b.output ++ story.flatMap (·.left) }, rest) ∧
      ∀ p ∈ story, p.Accords r := by
  induction ms generalizing b pattern with
  | nil => exact ⟨[], pattern, rfl, rfl, rfl, by simp [publishInTurn], nofun⟩
  | cons m ms ih =>
    obtain ⟨p, rest, rfl, hp, hpattern, hfirst, hsecond⟩ := run_publishOver r m b pattern
    obtain ⟨story, rest', hmessages, hresults, hrest, houtput, hstory⟩ :=
      ih { b with output := b.output ++ p.left } rest
    refine ⟨p :: story, rest', ?_, ?_, ?_, ?_, List.forall_mem_cons.2 ⟨hp, hstory⟩⟩
    · rw [List.map_cons, hmessages]
    · simp [publishInTurn, hfirst, hsecond, hresults]
    · rw [hpattern, hrest, List.flatMap_cons, Stream'.append_append_stream]
    · simp [publishInTurn, hsecond, houtput, List.append_assoc]

/-- An output that takes a line and then fails to pass it on gets the line a second time. -/
theorem publishInTurn_repeats_a_kept_line :
    let m : Message := ⟨"rhasspy/wake-word/stop-listening", [], .atMostOnce⟩
    let line := Utf8.encode "rhasspy/wake-word/stop-listening\n"
    let run := publishInTurn ⟨3, 50, 1000⟩ [m] (({} : Link Unit), .cons .keeps (.const .accepts))
    write m.topic m.payload = .ok line ∧ run.1 = [.ok ()] ∧ run.2.1.output = line ++ line ∧
      run.2.1.output ≠ line := by
  decide +kernel

end Link

end VoiceTurn.Line
