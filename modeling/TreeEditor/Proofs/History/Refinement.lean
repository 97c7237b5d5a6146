import TreeEditor.Proofs.History

/-! A bounded history beside one that forgets nothing, both given the same requests. Entries that
the bounded one drops are the oldest of its past. They are never the ones that undo or redo would
return, and they never come back. -/

namespace TreeEditor

variable {α : Type}

/-- Entries before and after the present, the nearest first. None is ever dropped for want of
room. -/
structure FullHistory (α : Type) where
  past : List α := []
  future : List α := []
deriving DecidableEq

namespace FullHistory

def record (full : FullHistory α) (present : α) : FullHistory α :=
  { past := present :: full.past }

def clearFuture (full : FullHistory α) : FullHistory α :=
  { past := full.past }

def undo? (full : FullHistory α) (present : α) : Option (α × FullHistory α) :=
  match full.past with
  | [] => none
  | previous :: past => some (previous, { past, future := present :: full.future })

def redo? (full : FullHistory α) (present : α) : Option (α × FullHistory α) :=
  match full.future with
  | [] => none
  | next :: future => some (next, { past := present :: full.past, future })

end FullHistory

/-- What can be asked of a history. All but clearing bring the present along. -/
inductive HistoryRequest (α : Type) where
  | record (present : α)
  | clearFuture
  | undo (present : α)
  | redo (present : α)
deriving DecidableEq

def HistoryRequest.isRecord : HistoryRequest α → Bool
  | record _ => true
  | _ => false

/-- The history after a request. A refused one changes nothing. -/
def History.after (h : History α) : HistoryRequest α → History α
  | .record present => h.record present
  | .clearFuture => h.clearFuture
  | .undo present => ((h.undo? present).map Prod.snd).getD h
  | .redo present => ((h.redo? present).map Prod.snd).getD h

def History.afterAll (h : History α) (requests : List (HistoryRequest α)) : History α :=
  requests.foldl History.after h

namespace FullHistory

def after (full : FullHistory α) : HistoryRequest α → FullHistory α
  | .record present => full.record present
  | .clearFuture => full.clearFuture
  | .undo present => ((full.undo? present).map Prod.snd).getD full
  | .redo present => ((full.redo? present).map Prod.snd).getD full

/-- The full history after a request that a bounded one gets as well. An undo that the bounded one
refuses is not passed on. -/
def follow (full : FullHistory α) (h : History α) (request : HistoryRequest α) : FullHistory α :=
  match request with
  | .undo present => if (h.undo? present).isSome then full.after request else full
  | _ => full.after request

def followAll : FullHistory α → History α → List (HistoryRequest α) → FullHistory α
  | full, _, [] => full
  | full, h, request :: rest => (full.follow h request).followAll (h.after request) rest

theorem undo?_of_past {full : FullHistory α} {previous : α} {past : List α}
    (h : full.past = previous :: past) (present : α) :
    full.undo? present = some (previous, { past, future := present :: full.future }) := by
  rw [undo?, h]

theorem redo?_of_future {full : FullHistory α} {next : α} {future : List α}
    (h : full.future = next :: future) (present : α) :
    full.redo? present = some (next, { past := present :: full.past, future }) := by
  rw [redo?, h]

end FullHistory

namespace History

/-- The bounded history holds the newest part of the full past and the whole of the full future. Its
two stacks together keep within the limit; that is what spares the future. As long as no more
was recorded than the limit, nothing is lost. -/
structure Refines (records : Nat) (h : History α) (full : FullHistory α) : Prop where
  past : h.past <+: full.past
  future : h.future = full.future
  room : h.past.length + h.future.length ≤ h.limit
  entries : full.past.length + full.future.length ≤ records
  complete : records ≤ h.limit → h.past = full.past

variable {records : Nat} {h h' : History α} {full : FullHistory α} {present : α}

theorem new_refines (limit : Nat) : Refines 0 (new limit : History α) {} where
  past := List.prefix_rfl
  future := rfl
  room := Nat.zero_le _
  entries := Nat.le_refl 0
  complete _ := rfl

/-- Recording is the only request that drops an entry: the oldest one of a full past. -/
theorem Refines.record (hr : h.Refines records full) (present : α) :
    (h.record present).Refines (records + 1) (full.record present) := by
  refine ⟨?_, rfl, ?_, ?_, fun hRecords => ?_⟩
  · have hTaken : (present :: h.past).take h.limit <+: present :: h.past := List.take_prefix _ _
    exact hTaken.trans (List.cons_prefix_cons.mpr ⟨rfl, hr.past⟩)
  · exact (h.record present).past_le
  · have hEntries := hr.entries
    simp only [FullHistory.record, List.length_cons, List.length_nil]
    omega
  · change records + 1 ≤ h.limit at hRecords
    have hEntries := hr.entries
    have hPast : h.past = full.past := hr.complete (by omega)
    change (present :: h.past).take h.limit = present :: full.past
    rw [hPast]
    apply List.take_of_length_le
    rw [List.length_cons]
    omega

theorem Refines.clearFuture (hr : h.Refines records full) :
    h.clearFuture.Refines records full.clearFuture := by
  refine ⟨hr.past, rfl, h.clearFuture.past_le, ?_, hr.complete⟩
  have hEntries := hr.entries
  simp only [FullHistory.clearFuture, List.length_nil]
  omega

/-- An accepted undo returns the same entry from both. -/
theorem Refines.undo (hr : h.Refines records full) {previous : α}
    (hUndo : h.undo? present = some (previous, h')) :
    ∃ full', full.undo? present = some (previous, full') ∧ h'.Refines records full' := by
  obtain ⟨hPast, _, hLimit⟩ := undo?_eq_some.mp hUndo
  have hFuture := future_of_undo? hr.room hUndo
  have hRoom := hr.room
  have hEntries := hr.entries
  obtain ⟨lost, hLost⟩ := hr.past
  -- What the bounded past has lost lies behind the entry that undo takes.
  have hFull : full.past = previous :: (h'.past ++ lost) := by rw [← hLost, hPast]; rfl
  rw [hPast, List.length_cons] at hRoom
  rw [hFull, List.length_cons] at hEntries
  refine ⟨_, FullHistory.undo?_of_past hFull present, ?_, ?_, ?_, ?_, fun hRecords => ?_⟩
  · exact List.prefix_append _ _
  · rw [hFuture, hr.future]
  · rw [hFuture, hLimit, List.length_cons]
    omega
  · simp only [List.length_cons]
    omega
  · have hSame := hr.complete (hLimit ▸ hRecords)
    rw [hPast, hFull] at hSame
    exact (List.cons.inj hSame).2

/-- An accepted redo returns the same entry from both. -/
theorem Refines.redo (hr : h.Refines records full) {next : α}
    (hRedo : h.redo? present = some (next, h')) :
    ∃ full', full.redo? present = some (next, full') ∧ h'.Refines records full' := by
  obtain ⟨hFuture, _, hLimit⟩ := redo?_eq_some.mp hRedo
  have hPast := past_of_redo? hr.room hRedo
  have hRoom := hr.room
  have hEntries := hr.entries
  have hFull : full.future = next :: h'.future := hr.future ▸ hFuture
  rw [hFuture, List.length_cons] at hRoom
  rw [hFull, List.length_cons] at hEntries
  refine ⟨_, FullHistory.redo?_of_future hFull present, ?_, rfl, ?_, ?_, fun hRecords => ?_⟩
  · rw [hPast]
    exact List.cons_prefix_cons.mpr ⟨rfl, hr.past⟩
  · rw [hPast, hLimit, List.length_cons]
    omega
  · simp only [List.length_cons]
    omega
  · rw [hPast, hr.complete (hLimit ▸ hRecords)]

theorem Refines.redo_refused (hr : h.Refines records full) (hRedo : h.redo? present = none) :
    full.redo? present = none := by
  rw [FullHistory.redo?, ← hr.future, redo?_eq_none.mp hRedo]

/-- One request keeps the two histories together. -/
theorem Refines.step (hr : h.Refines records full) (request : HistoryRequest α) :
    (h.after request).Refines (records + [request].countP HistoryRequest.isRecord)
      (full.follow h request) := by
  cases request with
  | record present => exact hr.record present
  | clearFuture => exact hr.clearFuture
  | undo present =>
      cases hUndo : h.undo? present with
      | none => simpa [after, FullHistory.follow, HistoryRequest.isRecord, hUndo] using hr
      | some stepped =>
          obtain ⟨full', hFull, hNext⟩ := hr.undo hUndo
          simpa [after, FullHistory.follow, FullHistory.after, HistoryRequest.isRecord, hUndo, hFull]
            using hNext
  | redo present =>
      cases hRedo : h.redo? present with
      | none =>
          have hFull := hr.redo_refused hRedo
          simpa [after, FullHistory.follow, FullHistory.after, HistoryRequest.isRecord, hRedo, hFull]
            using hr
      | some stepped =>
          obtain ⟨full', hFull, hNext⟩ := hr.redo hRedo
          simpa [after, FullHistory.follow, FullHistory.after, HistoryRequest.isRecord, hRedo, hFull]
            using hNext

theorem Refines.run (hr : h.Refines records full) (requests : List (HistoryRequest α)) :
    (h.afterAll requests).Refines (records + requests.countP HistoryRequest.isRecord)
      (full.followAll h requests) := by
  induction requests generalizing h full records with
  | nil => exact hr
  | cons request rest ih =>
      have hRest := ih (hr.step request)
      rwa [Nat.add_assoc, ← List.countP_append] at hRest

theorem after_limit (h : History α) (request : HistoryRequest α) :
    (h.after request).limit = h.limit := by
  cases request with
  | record present => rfl
  | clearFuture => rfl
  | undo present =>
      cases hUndo : h.undo? present with
      | none => simp [after, hUndo]
      | some stepped => simpa [after, hUndo] using (undo?_eq_some.mp hUndo).2.2
  | redo present =>
      cases hRedo : h.redo? present with
      | none => simp [after, hRedo]
      | some stepped => simpa [after, hRedo] using (redo?_eq_some.mp hRedo).2.2

theorem afterAll_limit (h : History α) (requests : List (HistoryRequest α)) :
    (h.afterAll requests).limit = h.limit := by
  induction requests generalizing h with
  | nil => rfl
  | cons request rest ih => exact (ih (h.after request)).trans (h.after_limit request)

/-- A bounded history refines one without bound. After any requests, and so after each part of a
longer run, an undo that the bounded one accepts returns the same entry from both, and a redo
returns the same entry from both or is refused by both. The futures are equal. The bounded past
is the newest part of the full one, within the limit, and all of it as long as no more was
recorded than the limit. A limit of zero counts as one. -/
theorem afterAll_refines (limit : Nat) (requests : List (HistoryRequest α)) :
    let h := (new limit : History α).afterAll requests
    let full := ({} : FullHistory α).followAll (new limit) requests
    (∀ present previous h', h.undo? present = some (previous, h') →
        ∃ full', full.undo? present = some (previous, full')) ∧
      (∀ present, (h.redo? present).map Prod.fst = (full.redo? present).map Prod.fst) ∧
      h.future = full.future ∧ h.past <+: full.past ∧ h.past.length ≤ max limit 1 ∧
      (requests.countP HistoryRequest.isRecord ≤ max limit 1 → h.past = full.past) := by
  intro h full
  have hRun : h.Refines (0 + requests.countP HistoryRequest.isRecord) full :=
    (new_refines limit).run requests
  have hLimit : h.limit = max limit 1 := afterAll_limit (new limit) requests
  refine ⟨?_, ?_, hRun.future, hRun.past, hLimit ▸ h.past_le, fun hRecords => ?_⟩
  · intro present previous h' hUndo
    obtain ⟨full', hFull, _⟩ := hRun.undo hUndo
    exact ⟨full', hFull⟩
  · intro present
    cases hRedo : h.redo? present with
    | none => rw [hRun.redo_refused hRedo]; rfl
    | some stepped =>
        obtain ⟨full', hFull, _⟩ := hRun.redo hRedo
        rw [hFull]
        rfl
  · apply hRun.complete
    rw [hLimit]
    omega

/-- Three records where the history keeps two, then more undos than it can accept and one redo. The
first entry is lost to the bounded past alone, and what is left returns the same entries from
both. -/
theorem afterAll_refines_evicted :
    let requests : List (HistoryRequest Nat) :=
      [.record 1, .record 2, .record 3, .undo 4, .undo 3, .undo 2, .redo 2]
    let h := (new 2 : History Nat).afterAll requests
    let full := ({} : FullHistory Nat).followAll (new 2) requests
    h.past = [2] ∧ full.past = [2, 1] ∧ h.future = [4] ∧ h.future = full.future ∧
      h.past <+: full.past ∧ (h.undo? 3).map Prod.fst = some 2 ∧
      (∃ full', full.undo? 3 = some (2, full')) ∧
      ∀ present, (h.redo? present).map Prod.fst = (full.redo? present).map Prod.fst := by
  intro requests h full
  have hUndo : h.undo? 3 = some (2, h.after (.undo 3)) := rfl
  obtain ⟨hAccepted, hRedo, hFuture, hPast, _⟩ := afterAll_refines 2 requests
  exact ⟨rfl, rfl, rfl, hFuture, hPast, rfl, hAccepted 3 2 _ hUndo, hRedo⟩

end History

end TreeEditor
