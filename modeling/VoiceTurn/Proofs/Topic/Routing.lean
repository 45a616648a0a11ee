import Mathlib.Data.List.Nodup
import VoiceTurn.Proofs.Topic.Filter
import VoiceTurn.Topic.Registry

/-!
# Routing by topic

All topics of a registry without defects are publishable, and no two cues share one
(`Registry.ofCue_injective`). A message therefore is about the one cue that `Registry.cueOf?` finds
for its topic, or about none.
-/

namespace VoiceTurn.Topic

namespace Registry

variable {r : Registry}

lemma topicDefect?_eq_none_iff {t : String} : topicDefect? t = none ↔ isPublishable t = true := by
  rw [isPublishable_iff]
  unfold topicDefect?
  constructor
  · intro h
    split_ifs at h with hempty hwildcard hblank
    refine ⟨by simpa using hempty, fun c hc => ?_⟩
    have hw : isWildcard c ≠ true := fun hw => hwildcard (List.any_eq_true.2 ⟨c, hc, hw⟩)
    have hb : isBlank c ≠ true := fun hb => hblank (List.any_eq_true.2 ⟨c, hc, hb⟩)
    exact ⟨Bool.eq_false_iff.2 hw, Bool.eq_false_iff.2 hb⟩
  · rintro ⟨hne, hall⟩
    have hempty : t.toList.isEmpty = false := List.isEmpty_eq_false_iff.2 hne
    have hwildcard : t.toList.any isWildcard = false :=
      List.any_eq_false.2 fun c hc => Bool.eq_false_iff.1 (hall c hc).1
    have hblank : t.toList.any isBlank = false :=
      List.any_eq_false.2 fun c hc => Bool.eq_false_iff.1 (hall c hc).2
    rw [hempty, hwildcard, hblank]
    rfl

lemma firstUnusable?_eq_none_iff :
    r.firstUnusable? = none ↔ ∀ slot, isPublishable (r.topic slot) = true := by
  simp only [firstUnusable?, List.findSome?_eq_none_iff, Option.map_eq_none_iff,
    topicDefect?_eq_none_iff]
  exact ⟨fun h slot => h slot slot.mem_all, fun h slot _ => h slot⟩

/-- The spec of `firstShared?`: the topics of the cues are distinct, also from those of the
`earlier` ones. -/
lemma firstShared?_eq_none_iff {earlier cues : List Cue} :
    r.firstShared? earlier cues = none ↔
      (cues.map r.ofCue).Nodup ∧ ∀ d ∈ earlier, ∀ c ∈ cues, r.ofCue d ≠ r.ofCue c := by
  induction cues generalizing earlier with
  | nil => simp [firstShared?]
  | cons c cues ih =>
    unfold firstShared?
    split_ifs with hshared
    · obtain ⟨d, hd, hdc⟩ := List.any_eq_true.1 hshared
      have hsame : r.ofCue d = r.ofCue c := of_decide_eq_true hdc
      exact ⟨nofun, fun h => absurd hsame (h.2 d hd c List.mem_cons_self)⟩
    · have hfresh : ∀ d ∈ earlier, r.ofCue d ≠ r.ofCue c := fun d hd heq =>
        hshared (List.any_eq_true.2 ⟨d, hd, decide_eq_true heq⟩)
      rw [ih]
      simp only [List.map_cons, List.nodup_cons, List.mem_map, List.mem_append, List.mem_cons,
        List.not_mem_nil, or_false]
      constructor
      · -- the cue at hand is among the earlier ones when the rest is looked at
        rintro ⟨hnodup, hne⟩
        refine ⟨⟨?_, hnodup⟩, ?_⟩
        · rintro ⟨d, hd, hdc⟩
          exact hne c (.inr rfl) d hd hdc.symm
        · rintro d hd c' (rfl | hc')
          · exact hfresh d hd
          · exact hne d (.inl hd) c' hc'
      · rintro ⟨⟨hc, hnodup⟩, hne⟩
        refine ⟨hnodup, ?_⟩
        rintro d (hd | rfl) c' hc' heq
        · exact hne d hd c' (.inr hc') heq
        · exact hc ⟨c', hc', heq.symm⟩

/-- There is no `defect?` just when all topics can be published and no two cues share one. -/
lemma defect?_eq_none_iff :
    r.defect? = none ↔
      (∀ slot, isPublishable (r.topic slot) = true) ∧ (Cue.all.map r.ofCue).Nodup := by
  have hnone : r.defect? = none ↔ r.firstUnusable? = none ∧ r.firstShared? [] Cue.all = none := by
    unfold defect?
    cases r.firstUnusable? <;> simp
  rw [hnone, firstUnusable?_eq_none_iff, firstShared?_eq_none_iff]
  simp

lemma isPublishable_topic (h : r.defect? = none) (s : Slot) : isPublishable (r.topic s) = true :=
  (defect?_eq_none_iff.1 h).1 s

lemma ofCue_injective (h : r.defect? = none) {c d : Cue} (heq : r.ofCue c = r.ofCue d) : c = d :=
  List.inj_on_of_nodup_map (defect?_eq_none_iff.1 h).2 c.mem_all d.mem_all heq

lemma defect?_stock : stock.defect? = none := by decide +kernel

/-- With `replace` a slot may get any topic that can be published and on which no other cue
arrives. -/
lemma defect?_replace (h : r.defect? = none) {slot : Slot} {topic : String}
    (hpublishable : isPublishable topic = true)
    (hfresh : ∀ c, Slot.ofCue c ≠ slot → r.ofCue c ≠ topic) :
    (r.replace slot topic).defect? = none := by
  have hslots : ∀ c ∈ Cue.all, ∀ d ∈ Cue.all, Slot.ofCue c = Slot.ofCue d → c = d := by decide
  have htopic (s : Slot) : (r.replace slot topic).topic s = if s = slot then topic else r.topic s :=
    rfl
  refine defect?_eq_none_iff.2
    ⟨fun s => ?_, List.Nodup.map_on (fun c hc d hd heq => ?_) (by decide)⟩
  · rw [htopic]
    split_ifs
    · exact hpublishable
    · exact isPublishable_topic h s
  · simp only [ofCue, htopic] at heq
    split_ifs at heq with hcslot hdslot hdslot
    · exact hslots c hc d hd (hcslot.trans hdslot.symm)
    · exact absurd heq.symm (hfresh d hdslot)
    · exact absurd heq (hfresh c hcslot)
    · exact ofCue_injective h heq

/-- The cue that arrives on a topic. -/
def cueOf? (r : Registry) (topic : String) : Option Cue := Cue.all.find? (r.ofCue · = topic)

lemma cueOf?_eq_some_iff (h : r.defect? = none) {topic : String} {c : Cue} :
    r.cueOf? topic = some c ↔ topic = r.ofCue c := by
  unfold cueOf?
  constructor
  · intro hfind
    have hc : r.ofCue c = topic := by simpa using List.find?_some hfind
    exact hc.symm
  · rintro rfl
    cases hfind : Cue.all.find? (r.ofCue · = r.ofCue c) with
    | none => exact absurd (decide_eq_true rfl) (List.find?_eq_none.1 hfind c c.mem_all)
    | some d =>
      have hd : r.ofCue d = r.ofCue c := by simpa using List.find?_some hfind
      rw [ofCue_injective h hd]

lemma filter_ofCue (h : r.defect? = none) (topic : String) :
    Cue.all.filter (r.ofCue · = topic) = (r.cueOf? topic).toList := by
  unfold cueOf?
  cases hfind : Cue.all.find? (r.ofCue · = topic) with
  | none => exact List.filter_eq_nil_iff.2 fun c hc => List.find?_eq_none.1 hfind c hc
  | some d =>
    have hd : r.ofCue d = topic := by simpa using List.find?_some hfind
    have hd' (c : Cue) : decide (r.ofCue c = topic) = decide (c = d) := by
      rw [decide_eq_decide]
      exact ⟨fun hc => ofCue_injective h (hc.trans hd.symm), fun hc => hc ▸ hd⟩
    simp only [hd']
    cases d <;> rfl

end Registry

end VoiceTurn.Topic
