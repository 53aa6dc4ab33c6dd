import AutomataCi.KeyedList

/-!
# Replay of guest requests

The guest keeps the replies of the requests it executed, so that a request
which is sent again is answered and not executed again.  A request whose
operation runs already waits for it.  The calls run concurrently: each step
below is one section under the lock of the cache, or one signal to the waiting
calls, and a call may be dropped while it waits or executes.

The frame of a response and the rejection of a conflict are parameters.
-/

namespace AutomataCi

open KeyedList

def maxReplayEntries : Nat :=
  256

def maxReplayBytes : Nat :=
  64 * 1024 * 1024

/-- The responses of the guest: the size of the frame of a response, unless it
has no frame, and the rejection of a conflicting request. -/
structure GuestResponses (Response : Type*) where
  frameBytes : Response → Option Nat
  operationConflict : Response

structure ReplayEntry (Id Fingerprint Response : Type*) where
  operationId : Id
  fingerprint : Fingerprint
  response : Response
  bytes : Nat
  deriving DecidableEq

/-- A call in flight, and the call which holds the sender of its signal. -/
structure InFlightReplay (Id Fingerprint : Type*) where
  operationId : Id
  fingerprint : Fingerprint
  owner : Nat

structure ReplayCache (Id Fingerprint Response : Type*) where
  entries : List (ReplayEntry Id Fingerprint Response)
  inFlight : List (InFlightReplay Id Fingerprint)
  order : List Id
  bytes : Nat

section Cache

variable {Id Fingerprint Response : Type*}
variable [DecidableEq Id]

inductive ReplayDecision (Id Fingerprint Response : Type*) where
  | answer (response : Response)
  | wait (owner : Nat)
  | execute (cache : ReplayCache Id Fingerprint Response)

namespace ReplayCache

def empty : ReplayCache Id Fingerprint Response :=
  ⟨[], [], [], 0⟩

def entryOf (self : ReplayCache Id Fingerprint Response) (operationId : Id) :
    Option (ReplayEntry Id Fingerprint Response) :=
  lookup ReplayEntry.operationId operationId self.entries

def inFlightOf (self : ReplayCache Id Fingerprint Response)
    (operationId : Id) : Option (InFlightReplay Id Fingerprint) :=
  lookup InFlightReplay.operationId operationId self.inFlight

def makeRoom (bytes : Nat) : List Id → List (ReplayEntry Id Fingerprint Response) → Nat →
      List Id × List (ReplayEntry Id Fingerprint Response) × Nat
  | [], entries, total => ([], entries, total)
  | oldest :: order, entries, total =>
    if maxReplayEntries ≤ entries.length ∨ maxReplayBytes < total + bytes then
      let removed := lookup ReplayEntry.operationId oldest entries
      makeRoom bytes order (remove ReplayEntry.operationId oldest entries)
        (total - (removed.map ReplayEntry.bytes).getD 0)
    else (oldest :: order, entries, total)

variable (responses : GuestResponses Response)

def responseBytes (response : Response) : Nat :=
  (responses.frameBytes response).getD (maxReplayBytes + 1)

variable (self : ReplayCache Id Fingerprint Response) (operationId : Id)

def insert (fingerprint : Fingerprint) (response : Response) :
    ReplayCache Id Fingerprint Response :=
  let bytes := responseBytes responses response
  if maxReplayBytes < bytes then self
  else
    let (order, entries, total) :=
      makeRoom bytes self.order self.entries self.bytes
    { self with
      bytes := total + bytes
      order := order ++ [operationId]
      entries := remove ReplayEntry.operationId operationId entries ++
        [⟨operationId, fingerprint, response, bytes⟩] }

def release : ReplayCache Id Fingerprint Response :=
  { self with
    inFlight := remove InFlightReplay.operationId operationId self.inFlight }

/-- The section under the lock when an execution ends with a response. -/
def commit (fingerprint : Fingerprint) (response : Response) :
    ReplayCache Id Fingerprint Response :=
  (self.release operationId).insert responses operationId fingerprint response

def get [DecidableEq Fingerprint] (self : ReplayCache Id Fingerprint Response) (operationId : Id)
    (fingerprint : Fingerprint) : Option Response :=
  (self.entryOf operationId).map fun entry =>
    if entry.fingerprint = fingerprint then entry.response
    else responses.operationConflict

/-- What a call does next.  The caller holds the lock. -/
def replayDecision [DecidableEq Fingerprint]
    (self : ReplayCache Id Fingerprint Response) (caller : Nat)
    (operationId : Id) (fingerprint : Fingerprint) :
    ReplayDecision Id Fingerprint Response :=
  match self.get responses operationId fingerprint with
  | some response => .answer response
  | none =>
    match self.inFlightOf operationId with
    | some running =>
      if running.fingerprint = fingerprint then .wait running.owner
      else .answer responses.operationConflict
    | none =>
      .execute
        { self with
          inFlight := ⟨operationId, fingerprint, caller⟩ :: self.inFlight }

def totalBytes (entries : List (ReplayEntry Id Fingerprint Response)) : Nat :=
  (entries.map ReplayEntry.bytes).sum

/-- The queue lists the cached operations, and the counter their bytes. -/
structure Accounted (cache : ReplayCache Id Fingerprint Response) : Prop where
  order_eq : cache.order = cache.entries.map ReplayEntry.operationId
  distinct : (cache.entries.map ReplayEntry.operationId).Nodup
  bytes_eq : cache.bytes = totalBytes cache.entries
  length_le : cache.entries.length ≤ maxReplayEntries
  bytes_le : cache.bytes ≤ maxReplayBytes
  inFlight_distinct : (cache.inFlight.map InFlightReplay.operationId).Nodup
  disjoint : ∀ running ∈ cache.inFlight, ∀ entry ∈ cache.entries,
    entry.operationId ≠ running.operationId

omit [DecidableEq Id] in
theorem accounted_empty : (empty : ReplayCache Id Fingerprint Response).Accounted := by
  constructor <;> simp [empty, totalBytes]

theorem remove_head {entry : ReplayEntry Id Fingerprint Response}
    {rest : List (ReplayEntry Id Fingerprint Response)}
    (hdistinct : ((entry :: rest).map ReplayEntry.operationId).Nodup) :
    remove ReplayEntry.operationId entry.operationId (entry :: rest) = rest := by
  rw [List.map_cons, List.nodup_cons] at hdistinct
  have hkeep : ∀ other ∈ rest, other.operationId ≠ entry.operationId := by
    intro other hother hsame
    exact hdistinct.1 (hsame ▸ List.mem_map_of_mem hother)
  simpa [remove] using hkeep

theorem makeRoom_spec {bytes : Nat} (hbytes : bytes ≤ maxReplayBytes)
    (entries : List (ReplayEntry Id Fingerprint Response))
    (hdistinct : (entries.map ReplayEntry.operationId).Nodup) :
    ∃ kept, kept <:+ entries ∧ kept.length < maxReplayEntries ∧
      totalBytes kept + bytes ≤ maxReplayBytes ∧
      makeRoom bytes (entries.map ReplayEntry.operationId) entries (totalBytes entries) =
        (kept.map ReplayEntry.operationId, kept, totalBytes kept) := by
  induction entries with
  | nil =>
    refine ⟨[], List.suffix_refl _, Nat.succ_pos _, ?_, rfl⟩
    simpa [totalBytes] using hbytes
  | cons entry rest ih =>
    have hrest : (rest.map ReplayEntry.operationId).Nodup := (List.nodup_cons.mp hdistinct).2
    rw [List.map_cons, makeRoom]
    by_cases hfull : maxReplayEntries ≤ (entry :: rest).length ∨
        maxReplayBytes < totalBytes (entry :: rest) + bytes
    · obtain ⟨kept, hsuffix, hlength, htotal, hroom⟩ := ih hrest
      refine ⟨kept, hsuffix.trans (List.suffix_cons _ _), hlength, htotal, ?_⟩
      have hlookup : lookup ReplayEntry.operationId entry.operationId
          (entry :: rest) = some entry := by
        simp [lookup]
      have hsub : totalBytes (entry :: rest) - entry.bytes = totalBytes rest := by simp [totalBytes]
      rw [if_pos hfull, hlookup, remove_head hdistinct]
      change makeRoom bytes _ rest (totalBytes (entry :: rest) - entry.bytes) = _
      rw [hsub, hroom]
    · rw [if_neg hfull]
      rw [not_or, not_le, not_lt] at hfull
      exact ⟨entry :: rest, List.suffix_refl _, hfull.1, hfull.2, rfl⟩

variable {self : ReplayCache Id Fingerprint Response}

theorem Accounted.release (haccounted : self.Accounted) (operationId : Id) :
    (self.release operationId).Accounted :=
  { haccounted with
    inFlight_distinct :=
      haccounted.inFlight_distinct.sublist (List.filter_sublist.map InFlightReplay.operationId)
    disjoint := fun running hrunning =>
      haccounted.disjoint running (mem_remove.mp hrunning).1 }

variable {operationId : Id} {fingerprint : Fingerprint} {response : Response}

theorem insert_of_too_large (hlarge : maxReplayBytes < responseBytes responses response) :
    self.insert responses operationId fingerprint response = self := by
  unfold insert
  exact if_pos hlarge

theorem insert_spec (haccounted : self.Accounted)
    (hfresh : ∀ entry ∈ self.entries, entry.operationId ≠ operationId)
    (hfits : responseBytes responses response ≤ maxReplayBytes) :
    ∃ kept, kept <:+ self.entries ∧ kept.length < maxReplayEntries ∧
      totalBytes kept + responseBytes responses response ≤ maxReplayBytes ∧
      self.insert responses operationId fingerprint response = { self with
          entries := kept ++ [⟨operationId, fingerprint, response,
            responseBytes responses response⟩]
          order := kept.map ReplayEntry.operationId ++ [operationId]
          bytes := totalBytes kept + responseBytes responses response } := by
  obtain ⟨kept, hsuffix, hlength, htotal, hroom⟩ :=
    makeRoom_spec hfits self.entries haccounted.distinct
  refine ⟨kept, hsuffix, hlength, htotal, ?_⟩
  have hremove : remove ReplayEntry.operationId operationId kept = kept := by
    refine List.filter_eq_self.mpr fun entry hentry => ?_
    exact decide_eq_true (hfresh entry (hsuffix.subset hentry))
  unfold insert
  simp only [if_neg (not_lt.mpr hfits), haccounted.order_eq, haccounted.bytes_eq, hroom, hremove]

theorem Accounted.insert (haccounted : self.Accounted)
    (hfresh : ∀ entry ∈ self.entries, entry.operationId ≠ operationId)
    (hidle : ∀ running ∈ self.inFlight, running.operationId ≠ operationId)
    (fingerprint : Fingerprint) (response : Response) :
    (self.insert responses operationId fingerprint response).Accounted := by
  by_cases hfits : responseBytes responses response ≤ maxReplayBytes
  · obtain ⟨kept, hsuffix, hlength, htotal, hinsert⟩ :=
      insert_spec responses haccounted hfresh hfits
    rw [hinsert]
    constructor
    · simp
    · rw [List.map_append, List.nodup_append]
      refine ⟨haccounted.distinct.sublist (hsuffix.sublist.map _), List.nodup_singleton _, ?_⟩
      intro id hid other hother
      obtain ⟨entry, hentry, rfl⟩ := List.mem_map.mp hid
      rw [List.map_singleton, List.mem_singleton] at hother
      rw [hother]
      exact hfresh entry (hsuffix.subset hentry)
    · simp [totalBytes]
    · simpa using hlength
    · exact htotal
    · exact haccounted.inFlight_distinct
    · intro running hrunning entry hentry
      rcases List.mem_append.mp hentry with hkept | hnew
      · exact haccounted.disjoint running hrunning entry (hsuffix.subset hkept)
      · rw [List.mem_singleton.mp hnew]
        exact (hidle running hrunning).symm
  · rw [insert_of_too_large responses (not_le.mp hfits)]
    exact haccounted

theorem Accounted.commit (haccounted : self.Accounted)
    (hfresh : ∀ entry ∈ self.entries, entry.operationId ≠ operationId)
    (fingerprint : Fingerprint) (response : Response) :
    (self.commit responses operationId fingerprint response).Accounted :=
  (haccounted.release operationId).insert responses hfresh
    (fun _ hrunning => (mem_remove.mp hrunning).2) fingerprint response

end ReplayCache

end Cache

end AutomataCi
