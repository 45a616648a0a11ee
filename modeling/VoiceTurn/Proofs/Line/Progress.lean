import Mathlib.Tactic.Lemma
import VoiceTurn.Proofs.Line.Transport

/-!
# Links at work

What reading can make of a link is said once (`Link.Reads`); publishing does not touch the input
(`Link.Keeps`). How far a link has come with its input is `Link.HasRead`: it has read the first
bytes, and others have arrived and wait. Reading what has arrived delivers the messages of the lines
that it completes.
-/

namespace VoiceTurn.Line

open Bus (Delivery Failure Message)

/-- The messages in the `wholeLines` of a stream. -/
def messagesIn (limit : Nat) (stream : Bytes) : List Message :=
  (wholeLines stream).filterMap (messageIn? limit)

/-- A message that `write` refuses is refused later as well. -/
lemma isPassing_of_write {t : String} {p : Bytes} {f : Failure} (h : write t p = .error f) :
    f.isPassing = false := by
  unfold write at h
  split at h
  · cases h
    rfl
  · split at h
    · cases h
      rfl
    · cases h

namespace Link

variable {ρ : Type}

/-- Whatever becomes of a message, `publish` concerns the output only. -/
lemma publish_snd_eq (l : Link ρ) (m : Message) : ∃ output brokenWrites brokenFlushes,
    (l.publish m).2 = { l with output, brokenWrites, brokenFlushes } := by
  unfold publish
  cases hline : write m.topic m.payload with
  | error f => exact ⟨l.output, l.brokenWrites, l.brokenFlushes, rfl⟩
  | ok line =>
    simp only [publishTo, hline]
    cases l.nextWriting with
    | accepts => exact ⟨_, l.brokenWrites, l.brokenFlushes, rfl⟩
    | breaks count => exact ⟨_, _, l.brokenFlushes, rfl⟩
    | keeps => exact ⟨_, l.brokenWrites, _, rfl⟩

/-- From `l` to `l'` neither the limit nor how far the input has been read has changed. -/
structure Keeps (l l' : Link ρ) : Prop where
  limit : l'.limit = l.limit
  intake : l'.intake = l.intake
  reader : l'.reader = l.reader

lemma keeps_publish (l : Link ρ) (m : Message) : l.Keeps (l.publish m).2 := by
  obtain ⟨_, _, _, hpublish⟩ := l.publish_snd_eq m
  rw [hpublish]
  exact ⟨rfl, rfl, rfl⟩

section
variable {l l' : Link ρ}

lemma Keeps.isClosed (h : l.Keeps l') : l'.isClosed = l.isClosed := by
  rw [Link.isClosed, h.reader]
  rfl

lemma Keeps.canRead (h : l.Keeps l') : l'.canRead = l.canRead := by
  rw [Link.canRead, h.reader, h.limit, h.intake]
  rfl

/-- What `readArrived` makes of a link. Without room for a line the reader takes the input for
ended; with room it has read everything that has arrived, and has found the end if there is one. -/
inductive Reads (l : Link ρ) : Link ρ → Prop where
  | noRoom (hroom : Framer.capacity l.limit = 0) : l.Reads { l with reader := .finished }
  | goesOn (framer : Framer) (hroom : Framer.capacity l.limit ≠ 0)
      (hending : l.intake.ending = none) :
    l.Reads { l with intake := {}, reader := .reading framer }
  | ends {e : Ending} (hroom : Framer.capacity l.limit ≠ 0) (hending : l.intake.ending = some e) :
    l.Reads { l with intake := { ending := e }, reader := .finished }

lemma exists_reading_of_canRead (h : l.canRead = true) : ∃ framer, l.reader = .reading framer := by
  unfold Link.canRead at h
  cases hreader : l.reader with
  | unstarted | finished => simp [hreader] at h
  | reading framer => exact ⟨framer, rfl⟩

lemma reads_readArrived (h : l.canRead = true) : l.Reads l.readArrived.2 := by
  obtain ⟨framer, hreader⟩ := exists_reading_of_canRead h
  simp only [readArrived, hreader]
  split_ifs with hroom
  · exact .noRoom hroom
  · cases hending : l.intake.ending with
    | none => exact .goesOn _ hroom hending
    | some e => cases e <;> exact .ends hroom hending

end

/-- A sturdy link whose reader has read `consumed`; `arrived` waits to be read, and the input goes
on. -/
structure HasRead (limit : Nat) (consumed arrived : Bytes) (l : Link ρ) : Prop where
  limit_eq : l.limit = limit
  sturdy : l.IsSturdy
  intake : l.intake = { arrived }
  reader : l.reader = .reading (Framer.feed limit (.fresh limit) consumed).2

namespace HasRead

variable {limit : Nat} {consumed arrived : Bytes} {l : Link ρ}

lemma start (hlimit : l.limit = limit) (hsturdy : l.IsSturdy) (hreader : l.reader = .unstarted)
    (hintake : l.intake = {}) : l.start.2.HasRead limit [] [] := by
  rw [start_eq hreader hintake]
  refine ⟨hlimit, hsturdy, rfl, ?_⟩
  rw [← hlimit]
  rfl

lemma arrive (h : l.HasRead limit consumed arrived) (bytes : Bytes) :
    (l.arrive bytes).HasRead limit consumed (arrived ++ bytes) := by
  refine ⟨h.limit_eq, h.sturdy, ?_, h.reader⟩
  rw [Link.arrive, h.intake]
  rfl

lemma isClosed (h : l.HasRead limit consumed arrived) : l.isClosed = false := by
  rw [Link.isClosed, h.reader]

lemma canRead (h : l.HasRead limit consumed arrived) (hlimit : limit + 1 < UInt64.size) :
    l.canRead = !arrived.isEmpty := by
  have hcapacity : Framer.capacity limit ≠ 0 := by
    rw [Framer.capacity_eq hlimit]
    exact Nat.succ_ne_zero _
  simp [Link.canRead, h.reader, h.limit_eq, h.intake, hcapacity]

/-- A `publish` writes the line of the message, if it has one. -/
lemma publish (h : l.HasRead limit consumed arrived) (m : Message) :
    (l.publish m).1 = ((write m.topic m.payload).map fun _ => ()) ∧
      (l.publish m).2.HasRead limit consumed arrived ∧
      (l.publish m).2.subscriptions = l.subscriptions ∧
      (l.publish m).2.output = l.output ++ (lineOf? m).getD [] := by
  rw [publish_eq h.sturdy]
  exact ⟨rfl, ⟨h.limit_eq, h.sturdy, h.intake, h.reader⟩, rfl, rfl⟩

/-- A `readArrived` delivers the messages of the lines that what has arrived completes. -/
lemma readArrived (h : l.HasRead limit consumed arrived) (hlimit : limit + 1 < UInt64.size) :
    l.readArrived.2.HasRead limit (consumed ++ arrived) [] ∧
      l.readArrived.2.subscriptions = l.subscriptions ∧ l.readArrived.2.output = l.output ∧
      ∃ ms, messagesIn limit (consumed ++ arrived) = messagesIn limit consumed ++ ms ∧
        l.readArrived.1 = ms.flatMap l.subscriptions.deliveries := by
  -- the reader stands where it would stand after all bytes before, so it can go on from there
  have harrived : l.intake.arrived = arrived := by rw [h.intake]
  have hread := readArrived_eq (by rwa [h.limit_eq]) h.reader (by rw [h.intake])
  rw [h.limit_eq, harrived] at hread
  have hfeed := Framer.feed_append limit (.fresh limit) consumed arrived
  rw [hread]
  refine ⟨⟨rfl, h.sturdy, rfl, ?_⟩, rfl, rfl, ?_⟩
  · rw [hfeed]
  · refine ⟨((Framer.feed limit (Framer.feed limit (.fresh limit) consumed).2 arrived).1).filterMap
      messageOf?, ?_, rfl⟩
    have hmessages (stream : Bytes) :
        messagesIn limit stream = (framesOf limit stream).filterMap messageOf? := by
      rw [framesOf_eq hlimit, List.filterMap_map]
      rfl
    rw [hmessages, hmessages, framesOf, hfeed, List.filterMap_append]
    rfl

end HasRead

end Link

end VoiceTurn.Line
