import VoiceTurn.Proofs.Bus.Access

/-!
# Sharing a bus

Several parties use one bus, and none of them knows what the others do to its table
(`Subscriptions.Evolves`). Numbers are never issued again, so whatever has an old number is an old
entry (`Subscriptions.Evolves.isLater`). This is why subscriptions can be taken back by their
numbers at once, when one of several fails, or at any later time
(`Access.subscribeAll_all_or_none`).
-/

namespace VoiceTurn.Bus

variable {ρ : Type}

namespace Subscriptions

variable {t t' t'' : Subscriptions ρ}

/-! ## Tables that others use -/

/-- What can become of a table by `grant` and `remove`, whoever subscribes and removes. -/
inductive Evolves (t : Subscriptions ρ) : Subscriptions ρ → Prop
  | refl : t.Evolves t
  | grant {t' : Subscriptions ρ} (h : t.Evolves t') (q : Request ρ) : t.Evolves (t'.grant q)
  | remove {t' : Subscriptions ρ} (h : t.Evolves t') (id : Nat) : t.Evolves (t'.remove id)

lemma Evolves.trans (h : t.Evolves t') (h' : t'.Evolves t'') : t.Evolves t'' := by
  induction h' with
  | refl => exact h
  | grant _ q ih => exact ih.grant q
  | remove _ id ih => exact ih.remove id

lemma evolves_grantAll (t : Subscriptions ρ) (requests : List (Request ρ)) :
    t.Evolves (t.grantAll requests) := by
  induction requests generalizing t with
  | nil => exact .refl
  | cons q requests ih => exact (Evolves.refl.grant q).trans (ih (t.grant q))

lemma evolves_removeAll (t : Subscriptions ρ) (ids : List Nat) : t.Evolves (t.removeAll ids) := by
  induction ids generalizing t with
  | nil =>
    rw [removeAll_nil]
    exact .refl
  | cons id ids ih =>
    rw [← removeAll_remove]
    exact (Evolves.refl.remove id).trans (ih (t.remove id))

/-- What has a number of the table `t` is an entry of it in `t'` as well, and such entries have kept
their order. -/
structure IsLater (t t' : Subscriptions ρ) : Prop where
  numbered : t'.IsNumbered
  issued : t.issued ≤ t'.issued
  old : (t'.entries.filter (·.id ≤ t.issued)).Sublist t.entries

lemma IsNumbered.isLater (h : t.IsNumbered) : t.IsLater t where
  numbered := h
  issued := Nat.le_refl _
  old := List.filter_sublist

lemma IsLater.grant (h : t.IsLater t') (q : Request ρ) : t.IsLater (t'.grant q) where
  numbered := h.numbered.append q.filter q.qos q.receiver
  issued := Nat.le_succ_of_le h.issued
  old := by
    have hnew : ¬ t'.issued + 1 ≤ t.issued := by
      have hle := h.issued
      omega
    rw [Subscriptions.grant, List.filter_append, List.filter_singleton, decide_eq_false hnew]
    simpa using h.old

lemma IsLater.remove (h : t.IsLater t') (id : Nat) : t.IsLater (t'.remove id) where
  numbered := h.numbered.remove id
  issued := h.issued
  old := (List.filter_sublist.filter _).trans h.old

lemma Evolves.isLater (ht : t.IsNumbered) (h : t.Evolves t') : t.IsLater t' := by
  induction h with
  | refl => exact ht.isLater
  | grant _ q ih => exact ih.grant q
  | remove _ id ih => exact ih.remove id

/-- The entries of a table that `Evolves` from the empty one are numbered. -/
lemma Evolves.isNumbered (h : ({} : Subscriptions ρ).Evolves t) : t.IsNumbered := by
  have hempty : ({} : Subscriptions ρ).IsNumbered := List.nil_sublist _
  exact (h.isLater hempty).numbered

/-! ## Entries that are added and taken back -/

/-- The table `t'` has entries for the requests behind those of `t`. -/
structure Adds (t t' : Subscriptions ρ) (requests : List (Request ρ))
    (added : List (Subscription ρ)) : Prop where
  entries : t'.entries = t.entries ++ added
  requests : added.map (fun e => (⟨e.filter, e.qos, e.receiver⟩ : Request ρ)) = requests

lemma Adds.length_eq {requests : List (Request ρ)} {added : List (Subscription ρ)}
    (h : t.Adds t' requests added) : added.length = requests.length := by
  rw [← h.requests, List.length_map]

lemma adds_grantAll (t : Subscriptions ρ) (requests : List (Request ρ)) :
    t.Adds (t.grantAll requests) requests (t.granted requests) where
  entries := entries_grantAll t requests
  requests := requests_granted t requests

/-- The entries `gone` of a table are gone. All others are left in their order, and no other entry
has one of their numbers. -/
structure Drops (t t' : Subscriptions ρ) (gone : List (Subscription ρ)) : Prop where
  entries : t'.entries = t.entries.filter (·.id ∉ gone.map (·.id))
  only : ∀ e ∈ t.entries, e.id ∈ gone.map (·.id) ↔ e ∈ gone

/-- A `removeAll` by numbers takes out the entries that were granted under them, whatever has become
of the table since. -/
lemma drops_removeAll {requests : List (Request ρ)} (ht : t.IsNumbered)
    (h : (t.grantAll requests).Evolves t') :
    t'.Drops (t'.removeAll (List.range' (t.issued + 1) requests.length)) (t.granted requests) := by
  have hlater := h.isLater (ht.grantAll requests)
  constructor
  · rw [ids_granted]
    rfl
  · refine fun e he => ⟨fun hid => ?_, List.mem_map_of_mem⟩
    rw [ids_granted, List.mem_range'_1] at hid
    -- the number is not newer than the requests, so the entry was there when they were granted
    have hle : e.id ≤ (t.grantAll requests).issued := by
      rw [issued_grantAll]
      omega
    have hmem := hlater.old.subset (List.mem_filter.2 ⟨he, decide_eq_true hle⟩)
    rw [entries_grantAll] at hmem
    rcases List.mem_append.1 hmem with hold | hnew
    · have hissued := ht.id_le hold
      omega
    · exact hnew

end Subscriptions

/-! ## Calls -/

namespace Access

variable {a a' : Access ρ}

/-- No removal that is still to come has been ordered to fail by the `Drill`. -/
def Removes (a : Access ρ) : Prop := a.drill.failingUnsubscribe ≤ a.drill.unsubscribes

lemma IsReliable.removes (h : a.IsReliable) : a.Removes := by
  rw [Removes, h.2]
  exact Nat.zero_le _

lemma Removes.subscribe (h : a.Removes) (q : Request ρ) : (a.subscribe q).2.Removes := by
  unfold Access.subscribe
  simp only
  split_ifs <;> exact h

lemma Removes.unsubscribe (h : a.Removes) (id : Nat) :
    (a.unsubscribe id).2.Removes ∧
      (a.unsubscribe id).2.carrier.subscriptions = a.carrier.subscriptions.remove id := by
  have hcall : a.drill.unsubscribes + 1 ≠ a.drill.failingUnsubscribe :=
    Nat.ne_of_gt (Nat.lt_succ_of_le h)
  simp only [Access.unsubscribe, if_neg hcall, Carrier.unsubscribe_eq,
    Carrier.subscriptions_withSubscriptions, and_true]
  exact Nat.le_succ_of_le h

lemma Removes.abandon (h : a.Removes) (ids : List Nat) :
    (a.abandon ids).carrier.subscriptions = a.carrier.subscriptions.removeAll ids := by
  induction ids generalizing a with
  | nil => exact (Subscriptions.removeAll_nil _).symm
  | cons id ids ih =>
    obtain ⟨hremoves, htable⟩ := h.unsubscribe id
    refine (ih hremoves).trans ?_
    rw [htable, Subscriptions.removeAll_remove]

open Subscriptions

lemma entries_removeAll_grantAll {t : Subscriptions ρ} (ht : t.IsNumbered)
    (requests : List (Request ρ)) :
    ((t.grantAll requests).removeAll
      (List.range' (t.issued + 1) requests.length)).entries = t.entries := by
  show (t.grantAll requests).entries.filter _ = t.entries
  rw [entries_grantAll, List.filter_append]
  have hold : t.entries.filter (·.id ∉ List.range' (t.issued + 1) requests.length) = t.entries := by
    refine List.filter_eq_self.2 fun e he => decide_eq_true fun hid => ?_
    rw [List.mem_range'_1] at hid
    have hissued := ht.id_le he
    omega
  have hnew : (t.granted requests).filter (·.id ∉ List.range' (t.issued + 1) requests.length) =
      [] := by
    refine List.filter_eq_nil_iff.2 fun e he hid => of_decide_eq_true hid ?_
    rw [← ids_granted]
    exact List.mem_map_of_mem he
  exact (congrArg₂ (· ++ ·) hold hnew).trans (List.append_nil _)

/-- When one of several subscriptions fails, all that have been made before it are taken back;
`done` has been granted so far. -/
lemma entries_of_subscribeAll_error {t : Subscriptions ρ} (done : List (Request ρ))
    {requests : List (Request ρ)} {f : Failure} (ht : t.IsNumbered) (ha : a.Removes)
    (htable : a.carrier.subscriptions = t.grantAll done)
    (h : a.subscribeAll (List.range' (t.issued + 1) done.length) requests = (.error f, a')) :
    a'.carrier.subscriptions.entries = t.entries := by
  induction requests generalizing a done with
  | nil => cases h
  | cons q requests ih =>
    have hremoves := ha.subscribe q
    unfold subscribeAll at h
    rcases a.subscribe_cases q with ⟨drill, heq, -⟩ | ⟨f, drill, heq, -⟩
    · have hid : a.carrier.subscriptions.issued + 1 = t.issued + 1 + done.length := by
        rw [htable, issued_grantAll]
        omega
      have hnext : (t.grantAll done).grant q = t.grantAll (done ++ [q]) :=
        t.grantAll_append done [q]
      rw [heq] at h hremoves
      refine ih (done ++ [q]) hremoves ?_ ?_
      · rw [Carrier.subscriptions_withSubscriptions, htable, hnext]
      · rw [List.length_append, List.length_singleton, List.range'_concat, Nat.one_mul, ← hid]
        exact h
    · rw [heq] at h hremoves
      cases h
      rw [hremoves.abandon]
      show (a.carrier.subscriptions.removeAll _).entries = _
      rw [htable, entries_removeAll_grantAll ht]

/-- However `subscribeAll` goes, the table evolves. -/
lemma evolves_subscribeAll {requests : List (Request ρ)} {result : Except Failure (List Nat)}
    (h : a.subscribeAll [] requests = (result, a')) :
    a.carrier.subscriptions.Evolves a'.carrier.subscriptions := by
  obtain ⟨granted, gone, -, -, hcarrier, -⟩ := subscribeAll_spec h
  rw [hcarrier, Carrier.subscriptions_withSubscriptions]
  exact (evolves_grantAll _ granted).trans (evolves_removeAll _ gone)

/-- Several subscriptions are made together or not at all: when one of them fails, the entries of
the table are those that it had, as long as removals succeed. When none fails, `removeAll` of the
numbers takes out what was added, and nothing else, at any later time. -/
theorem subscribeAll_all_or_none {requests : List (Request ρ)} {result : Except Failure (List Nat)}
    (ht : a.carrier.subscriptions.IsNumbered) (h : a.subscribeAll [] requests = (result, a')) :
    a.carrier.subscriptions.Evolves a'.carrier.subscriptions ∧
    (∀ f, result = .error f → a.Removes →
      a'.carrier.subscriptions.entries = a.carrier.subscriptions.entries) ∧
    ∀ ids, result = .ok ids → ∃ added,
      a.carrier.subscriptions.Adds a'.carrier.subscriptions requests added ∧
      ∀ t, a'.carrier.subscriptions.Evolves t → t.Drops (t.removeAll ids) added := by
  refine ⟨evolves_subscribeAll h, ?_, ?_⟩
  · rintro f rfl hremoves
    exact entries_of_subscribeAll_error [] ht hremoves rfl h
  · rintro ids rfl
    obtain ⟨htable, rfl⟩ := subscriptions_of_subscribeAll_ok h
    rw [htable]
    exact ⟨_, adds_grantAll _ requests, fun t ht' => drops_removeAll ht ht'⟩

lemma evolves_unsubscribeAll (a : Access ρ) (ids : List Nat) :
    a.carrier.subscriptions.Evolves (a.unsubscribeAll ids).2.carrier.subscriptions := by
  obtain ⟨gone, drill, -, haccess, -⟩ := a.unsubscribeAll_spec ids
  rw [haccess, Carrier.subscriptions_withSubscriptions]
  exact evolves_removeAll _ gone

end Access

end VoiceTurn.Bus
