import AutomataCi.OutputMasking

/-!
# No registered secret reaches the log

Three facts carry the argument.  What the masker returns contains no mask.
Each line sent to the log ends with a newline, except for the last partial
line of a pipe, after which nothing is sent for this pipe.  A line of a secret
contains no newline.  So a line of a registered secret which occurs in the
text sent on a channel would occur inside one masked line.
-/

namespace AutomataCi

open FallibleState GuardedResult SubstringSearch TextOperations

/-! ## The masker -/

namespace SecretMasker

theorem registerBytes_spec (known : List Mask) (value : Mask) :
    Triple (fun masker => known ⊆ masker.masks) (registerBytes value)
      (fun _ masker => known ⊆ masker.masks ∧ value ∈ masker.masks)
      (fun masker => known ⊆ masker.masks) := by
  intro masker hknown
  unfold registerBytes
  rw [exec_bind, exec_get, andThen_ok]
  by_cases hvalue : value ∈ masker.masks
  · rw [dif_pos hvalue]
    exact ⟨hknown, hvalue⟩
  · rw [dif_neg hvalue]
    by_cases hlimits : masker.masks.length + 1 ≤ maxMasks ∧
        masker.aggregateBytes + value.val.length ≤ maxMaskBytes
    · rw [dif_pos hlimits]
      exact ⟨List.subset_cons_of_subset value hknown, List.mem_cons_self⟩
    · rw [dif_neg hlimits]
      exact hknown

theorem registerAll_spec (known values : List Mask) :
    Triple (fun masker => known ⊆ masker.masks) (values.forM registerBytes)
      (fun _ masker => known ⊆ masker.masks ∧ values ⊆ masker.masks)
      (fun masker => known ⊆ masker.masks) := by
  induction values generalizing known with
  | nil => exact triple_pure fun _ hknown => ⟨hknown, List.nil_subset _⟩
  | cons value rest ih =>
    change Triple _ (registerBytes value >>= fun _ => rest.forM registerBytes) _ _
    refine triple_bind (registerBytes_spec known value) fun _ => ?_
    -- the masks known to the remaining rounds include the one just added
    refine (ih (value :: known)).consequence ?_ ?_ ?_
    · exact fun masker hmasker => List.cons_subset.mpr ⟨hmasker.2, hmasker.1⟩
    · intro _ masker hmasker
      have hknown := List.cons_subset.mp hmasker.1
      exact ⟨hknown.2, List.cons_subset.mpr ⟨hknown.1, hmasker.2⟩⟩
    · exact fun masker hmasker => (List.cons_subset.mp hmasker).2

theorem mem_lineMasks {value : Text} {mask : Mask} :
    mask ∈ lineMasks value ↔ ∃ line ∈ nonBlankLines value, utf8Bytes line = mask.val := by
  simp only [lineMasks, List.mem_pmap, Mask.ofText, Subtype.ext_iff, exists_prop]

theorem register_spec (known : List Mask) (value : Text) :
    Triple (fun masker => known ⊆ masker.masks) (register value)
      (fun _ masker => known ⊆ masker.masks ∧ lineMasks value ⊆ masker.masks)
      (fun masker => known ⊆ masker.masks) := by
  unfold register
  by_cases hvalue : value = []
  · rw [dif_pos hvalue]
    refine triple_pure fun masker hknown => ⟨hknown, ?_⟩
    rw [hvalue]
    exact List.nil_subset _
  · rw [dif_neg hvalue]
    refine triple_bind (triple_modify_keeps fun _ hknown => hknown) fun _ => ?_
    refine triple_bind (registerBytes_spec known _) fun _ => ?_
    exact (registerAll_spec known _).consequence
      (fun _ hmasker => hmasker.1) (fun _ _ hmasker => hmasker)
      (fun _ hmasker => hmasker)

variable {masks : List Mask}

theorem ne_nil_of_mem_patternsOf : ∀ pattern ∈ patternsOf masks, pattern ≠ [] := by
  intro pattern hpattern
  obtain ⟨mask, -, rfl⟩ := List.mem_map.mp hpattern
  exact mask.property

theorem maskWith_spec {source pattern : Bytes} (hpattern : pattern ∈ patternsOf masks) :
    ¬pattern <:+: maskWith (patternsOf masks) source := by
  unfold maskWith
  have hnone {text : Bytes} (hfind : find (patternsOf masks) text = none) : ¬pattern <:+: text :=
    (find_eq_none_iff ne_nil_of_mem_patternsOf).mp hfind pattern hpattern
  split
  · next hfind => exact hnone hfind
  · next =>
      dsimp only
      split
      · next hfind => exact hnone hfind
      · next =>
          split
          · next hfind => exact hnone hfind
          · next =>
              rw [List.infix_nil]
              exact ne_nil_of_mem_patternsOf pattern hpattern

theorem currentMatcher_spec (builds : List Mask → Bool) (masks : List Mask) :
    Triple (fun masker => masker.masks = masks) (currentMatcher builds)
      (fun patterns masker => masker.masks = masks ∧ patterns = masks)
      (fun masker => masker.masks = masks) := by
  intro masker hmasks
  unfold currentMatcher
  rw [exec_bind, exec_get, andThen_ok]
  cases hmatcher : masker.matcher with
  | some patterns => exact ⟨hmasks, (masker.matcher_eq patterns hmatcher).trans hmasks⟩
  | none =>
    refine triple_bind (triple_check (fun _ _ hmasks _ => hmasks)
      fun _ hmasks => hmasks) (fun _ => ?_) masker hmasks
    refine triple_bind (triple_modify_keeps fun _ hmasks => hmasks) fun _ => ?_
    exact triple_pure fun _ hnext => ⟨hnext, hmasks⟩

theorem mask_spec (builds : List Mask → Bool) (source : Bytes) (masks : List Mask) :
    Triple (fun masker => masker.masks = masks) (mask builds source)
      (fun masked masker => masker.masks = masks ∧
        ∀ pattern ∈ patternsOf masks, ¬pattern <:+: masked)
      (fun masker => masker.masks = masks) := by
  intro masker hmasks
  unfold mask
  rw [exec_bind, exec_get, andThen_ok]
  by_cases hplain : source = [] ∨ masker.masks = []
  · rw [if_pos hplain]
    refine ⟨hmasks, fun pattern hpattern hinside => ?_⟩
    rcases hplain with hsource | hempty
    · rw [hsource, List.infix_nil] at hinside
      exact ne_nil_of_mem_patternsOf pattern hpattern hinside
    · rw [← hmasks, hempty] at hpattern
      cases hpattern
  · rw [if_neg hplain]
    refine triple_bind (currentMatcher_spec builds masks) (fun patterns => ?_) masker hmasks
    refine triple_pure fun next hnext => ⟨hnext.1, ?_⟩
    rw [hnext.2]
    exact fun pattern hpattern => maskWith_spec hpattern

end SecretMasker

/-! ## What the log shows -/

def emittedOn (channel : LogChannel) (events : List LogEvent) : Bytes :=
  (events.filter fun event => event.channel = channel).flatMap LogEvent.payload

theorem emittedOn_append (channel : LogChannel) (events later : List LogEvent) :
    emittedOn channel (events ++ later) = emittedOn channel events ++ emittedOn channel later := by
  simp [emittedOn]

theorem emittedOn_chunks (groupId : String) (channel : LogChannel) (sent : List Bytes) :
    emittedOn channel (sent.map fun chunk => ⟨groupId, channel, chunk⟩) = sent.flatten := by
  induction sent with
  | nil => rfl
  | cons chunk rest ih =>
    rw [List.flatten_cons, ← ih]
    simp [emittedOn]

theorem emittedOn_other {channel other : LogChannel} (hother : other ≠ channel)
    (groupId : String) (sent : List Bytes) :
    emittedOn other (sent.map fun chunk => ⟨groupId, channel, chunk⟩) = [] := by
  induction sent with
  | nil => rfl
  | cons chunk rest ih =>
    rw [← ih]
    simp [emittedOn, hother.symm]

def Terminated (bytes : Bytes) : Prop :=
  bytes = [] ∨ ∃ front, bytes = front ++ [newlineByte]

theorem not_infix_append_of_terminated {word front back : Bytes}
    (hnewline : newlineByte ∉ word) (hfront : Terminated front)
    (habsent : ¬word <:+: front) (hback : ¬word <:+: back) :
    ¬word <:+: front ++ back := by
  rcases hfront with rfl | ⟨line, rfl⟩
  · exact hback
  · intro hinside
    rw [List.append_assoc, List.singleton_append] at hinside
    rcases infix_append_cons hnewline hinside with hline | hrest
    · exact habsent (hline.trans (List.prefix_append _ _).isInfix)
    · exact hback hrest

/-- A secret which was registered after `start` events, seen at a state: the
lines of the secret are masked, none was sent since, and what was sent ends
with a newline on the channels which are still open. -/
structure Hidden (secret : Text) (start : Nat) (closed : LogChannel → Prop)
    (state : PhaseOutputState) : Prop where
  start_le : start ≤ state.events.length
  masked : lineMasks secret ⊆ state.masker.masks
  absent : ∀ channel, ∀ line ∈ nonBlankLines secret,
    ¬utf8Bytes line <:+: emittedOn channel (state.events.drop start)
  terminated : ∀ channel, ¬closed channel → Terminated (emittedOn channel (state.events.drop start))

variable (known : SecretMasker)

/-- The secrets registered before the phase, and those which a line
registered. -/
def RegisteredFrom (state : PhaseOutputState) (secret : Text) (start : Nat) : Prop :=
  (known.Registered secret ∧ start = 0) ∨ (secret, start) ∈ state.registrations

instance (known : SecretMasker) (state : PhaseOutputState) (secret : Text)
    (start : Nat) : Decidable (RegisteredFrom known state secret start) :=
  inferInstanceAs (Decidable (_ ∨ _))

def AllHidden (closed : LogChannel → Prop) (state : PhaseOutputState) : Prop :=
  ∀ secret start, RegisteredFrom known state secret start → Hidden secret start closed state

def Stopped : PhaseOutputState → Prop :=
  AllHidden known fun _ => True

section Steps

variable {known : SecretMasker} {closed : LogChannel → Prop}
variable {state next : PhaseOutputState} {closed' : LogChannel → Prop}

theorem AllHidden.close (hhidden : AllHidden known closed state)
    (hclosed : ∀ channel, closed channel → closed' channel) : AllHidden known closed' state := by
  intro secret start hregistered
  have hsecret := hhidden secret start hregistered
  exact { hsecret with
      terminated := fun channel hopen =>
        hsecret.terminated channel (mt (hclosed channel) hopen) }

theorem AllHidden.stopped (hhidden : AllHidden known closed state) : Stopped known state :=
  hhidden.close fun _ _ => trivial

theorem AllHidden.frame (hhidden : AllHidden known closed state)
    (hevents : next.events = state.events)
    (hregistrations : next.registrations = state.registrations)
    (hmasks : state.masker.masks ⊆ next.masker.masks) :
    AllHidden known closed next := by
  intro secret start hregistered
  have hsecret := hhidden secret start (by rwa [RegisteredFrom, hregistrations] at hregistered)
  constructor
  · rw [hevents]
    exact hsecret.start_le
  · exact List.Subset.trans hsecret.masked hmasks
  · rw [hevents]
    exact hsecret.absent
  · rw [hevents]
    exact hsecret.terminated

theorem AllHidden.registered {secret : Text} (hhidden : AllHidden known closed state)
    (hmasks : lineMasks secret ⊆ state.masker.masks) :
    AllHidden known closed
      { state with
        registrations := state.registrations ++ [(secret, state.events.length)] } := by
  intro other start hregistered
  simp only [RegisteredFrom, List.mem_append, List.mem_singleton, Prod.mk.injEq] at hregistered
  rcases hregistered with hbefore | hline | ⟨rfl, rfl⟩
  · obtain ⟨hstart, hmasked, habsent, hterminated⟩ := hhidden other start (.inl hbefore)
    exact ⟨hstart, hmasked, habsent, hterminated⟩
  · obtain ⟨hstart, hmasked, habsent, hterminated⟩ := hhidden other start (.inr hline)
    exact ⟨hstart, hmasked, habsent, hterminated⟩
  · have hnothing (channel : LogChannel) : emittedOn channel
        (state.events.drop state.events.length) = [] := by
      rw [List.drop_length]
      rfl
    refine ⟨le_refl _, hmasks, fun channel line hline => ?_,
      fun channel _ => .inl (hnothing channel)⟩
    rw [hnothing, List.infix_nil]
    exact utf8Bytes_ne_nil (ne_nil_of_mem_nonBlankLines line hline)

/-- The channels which are closed once a line was sent without a newline. -/
def closedAfter (closed : LogChannel → Prop) (newline : Bool)
    (channel : LogChannel) : LogChannel → Prop :=
  fun other => closed other ∨ (newline = false ∧ other = channel)

theorem Hidden.sent {secret : Text} {start : Nat} {channel : LogChannel} {groupId : String}
    {sent : List Bytes} (hhidden : Hidden secret start closed state) (hopen : ¬closed channel)
    (habsent : ∀ line ∈ nonBlankLines secret, ¬utf8Bytes line <:+: sent.flatten)
    (hclosed : ∀ other, closed other → closed' other)
    (hterminated : ¬closed' channel → Terminated sent.flatten) :
    Hidden secret start closed'
      { state with
        events := state.events ++ sent.map fun chunk => ⟨groupId, channel, chunk⟩ } := by
  have hdrop (other : LogChannel) : emittedOn other ((state.events ++ sent.map fun chunk =>
        (⟨groupId, channel, chunk⟩ : LogEvent)).drop start) =
      emittedOn other (state.events.drop start) ++
        emittedOn other (sent.map fun chunk => ⟨groupId, channel, chunk⟩) := by
    rw [List.drop_append_of_le_length hhidden.start_le, emittedOn_append]
  refine ⟨?_, hhidden.masked, fun other line hline => ?_, fun other hother => ?_⟩
  · rw [List.length_append]
    exact Nat.le_add_right_of_le hhidden.start_le
  · rw [hdrop]
    by_cases hchannel : other = channel
    · rw [hchannel, emittedOn_chunks]
      exact not_infix_append_of_terminated
        (newlineByte_notMem_utf8Bytes (newline_notMem_nonBlankLines hline))
        (hhidden.terminated channel hopen) (hhidden.absent channel line hline)
        (habsent line hline)
    · rw [emittedOn_other hchannel, List.append_nil]
      exact hhidden.absent other line hline
  · rw [hdrop]
    by_cases hchannel : other = channel
    · rw [hchannel] at hother ⊢
      rw [emittedOn_chunks]
      rcases hterminated hother with hempty | ⟨front, hfront⟩
      · rw [hempty, List.append_nil]
        exact hhidden.terminated channel hopen
      · exact .inr ⟨_, by rw [hfront, List.append_assoc]⟩
    · rw [emittedOn_other hchannel, List.append_nil]
      exact hhidden.terminated other (mt (hclosed other) hother)

end Steps

/-! ## One line -/

theorem flatten_chunksWithin {size : Nat} (hsize : 0 < size) (fuel : Nat)
    {text : Bytes} (hfuel : text.length ≤ fuel) :
    (chunksWithin size fuel text).flatten = text := by
  induction fuel generalizing text with
  | zero =>
    rw [List.length_eq_zero_iff.mp (Nat.le_zero.mp hfuel)]
    rfl
  | succ fuel ih =>
    unfold chunksWithin
    by_cases htext : text = []
    · rw [if_pos htext, htext]
      rfl
    · have hlength : 0 < text.length := List.length_pos_iff.mpr htext
      have hrest : (text.drop size).length ≤ fuel := by
        rw [List.length_drop]
        omega
      rw [if_neg htext, List.flatten_cons, ih hrest, List.take_append_drop]

theorem flatten_chunks (payload : Bytes) : (chunks maxLogFrameBytes payload).flatten = payload :=
  flatten_chunksWithin (by decide) _ (le_refl _)

namespace PhaseOutputState

variable (environment : OutputEnvironment)

theorem exec_emitChunks (channel : LogChannel) (payload : List Bytes) (state : PhaseOutputState) :
    ∃ result sent, sent <+: payload ∧ (result = .ok () → sent = payload) ∧
      exec (payload.forM fun chunk =>
        emitLog environment ⟨environment.groupId, channel, chunk⟩) state =
      (result, { state with
          events := state.events ++
            sent.map fun chunk => ⟨environment.groupId, channel, chunk⟩ }) := by
  induction payload generalizing state with
  | nil =>
    refine ⟨.ok (), [], List.nil_prefix, fun _ => rfl, ?_⟩
    rw [List.map_nil, List.append_nil]
    rfl
  | cons chunk rest ih =>
    let event : LogEvent := ⟨environment.groupId, channel, chunk⟩
    let after := { state with events := state.events ++ [event] }
    have hloop : exec ((chunk :: rest).forM fun chunk =>
        emitLog environment ⟨environment.groupId, channel, chunk⟩) state =
        andThen (fun _ => rest.forM fun chunk =>
          emitLog environment ⟨environment.groupId, channel, chunk⟩)
          (rejectIf (environment.accepts after.events = false) .internal, after) := by
      change exec (emitLog environment event >>= _) state = _
      rw [exec_bind]
      rfl
    rw [hloop]
    cases haccepts : environment.accepts after.events with
    | false => exact ⟨.error .internal, [chunk], by simp, by simp, rfl⟩
    | true =>
      obtain ⟨result, sent, hsent, hok, hexec⟩ := ih after
      refine ⟨result, chunk :: sent, (List.prefix_cons_inj chunk).mpr hsent,
        fun hresult => by rw [hok hresult], ?_⟩
      have haccepted : rejectIf (true = false) ExecutorAdapterErrorKind.internal = .ok () := rfl
      rw [haccepted, andThen_ok, hexec]
      simp [after, event]

variable {known : SecretMasker}

structure Standing (known : SecretMasker) (closed : LogChannel → Prop)
    (buffers : ExecutionOutputStream → Bytes) (state : PhaseOutputState) :
    Prop where
  hidden : AllHidden known closed state
  buffers_eq : ∀ stream, state.buffer stream = buffers stream

variable {closed : LogChannel → Prop}
variable {buffers : ExecutionOutputStream → Bytes} {state next : PhaseOutputState}

theorem Standing.frame (hstanding : Standing known closed buffers state)
    (hevents : next.events = state.events)
    (hregistrations : next.registrations = state.registrations)
    (hmasks : state.masker.masks ⊆ next.masker.masks)
    (hbuffers : ∀ stream, next.buffer stream = state.buffer stream) :
    Standing known closed buffers next :=
  ⟨hstanding.hidden.frame hevents hregistrations hmasks,
    fun stream => (hbuffers stream).trans (hstanding.buffers_eq stream)⟩

theorem buffer_congr (hstdout : next.stdout = state.stdout) (hstderr : next.stderr = state.stderr)
    (stream : ExecutionOutputStream) : next.buffer stream = state.buffer stream := by
  cases stream with
  | stdout => exact hstdout
  | stderr => exact hstderr

theorem ensureActive_spec :
    Triple (Standing known closed buffers) (ensureActive environment)
      (fun _ => Standing known closed buffers) (Stopped known) := by
  unfold ensureActive
  refine triple_bind (triple_get fun _ hstanding => hstanding) fun _ => ?_
  refine triple_bind (triple_modify_keeps fun state hstanding => ?_) fun _ => ?_
  · exact hstanding.frame rfl rfl (List.Subset.refl _) (buffer_congr rfl rfl)
  · exact triple_check (fun _ _ hstanding _ => hstanding)
      fun _ hstanding => hstanding.hidden.stopped

theorem registerSecret_spec (secret : Text) :
    Triple (Standing known closed buffers) (registerSecret secret)
      (fun _ => Standing known closed buffers) (Stopped known) := by
  unfold registerSecret
  refine triple_bind (?_ : Triple _ _ (fun _ state => Standing known closed buffers state ∧
      lineMasks secret ⊆ state.masker.masks) _) fun _ => ?_
  · refine triple_focus fun state hstanding => ?_
    refine (SecretMasker.register_spec state.masker.masks secret).consequence ?_ ?_ ?_
    · rintro masker rfl
      exact List.Subset.refl _
    · intro _ masker hmasker
      exact ⟨hstanding.frame rfl rfl hmasker.1 (buffer_congr rfl rfl), hmasker.2⟩
    · intro masker hmasker
      have hnext : AllHidden known closed { state with masker } :=
        hstanding.hidden.frame rfl rfl hmasker
      exact hnext.stopped
  · refine triple_modify fun state hstate => ⟨hstate.1.hidden.registered hstate.2, ?_⟩
    exact fun stream => (buffer_congr rfl rfl stream).trans (hstate.1.buffers_eq stream)

theorem registerDynamicMasks_spec (line : WorkflowLine) :
    Triple (Standing known closed buffers) (registerDynamicMasks line)
      (fun _ => Standing known closed buffers) (Stopped known) := by
  unfold registerDynamicMasks
  split
  · exact triple_forM fun mask _ => registerSecret_spec mask
  · exact registerSecret_spec _
  · exact triple_pure fun _ hstanding => hstanding

theorem not_infix_payload {masks : List Mask} {secret line : Text} {masked : Bytes} (newline : Bool)
    (hsecret : lineMasks secret ⊆ masks)
    (hmasked : ∀ pattern ∈ SecretMasker.patternsOf masks, ¬pattern <:+: masked)
    (hline : line ∈ nonBlankLines secret) :
    ¬utf8Bytes line <:+:
      if newline then masked ++ [newlineByte] else masked := by
  have hnonempty : utf8Bytes line ≠ [] := utf8Bytes_ne_nil (ne_nil_of_mem_nonBlankLines line hline)
  have hpattern : utf8Bytes line ∈ SecretMasker.patternsOf masks := by
    refine List.mem_map.mpr ⟨⟨utf8Bytes line, hnonempty⟩, hsecret ?_, rfl⟩
    exact SecretMasker.mem_lineMasks.mpr ⟨line, hline, rfl⟩
  have habsent := hmasked _ hpattern
  cases newline with
  | false => exact habsent
  | true =>
    intro hinside
    have hnewline : newlineByte ∉ utf8Bytes line :=
      newlineByte_notMem_utf8Bytes (newline_notMem_nonBlankLines hline)
    rcases infix_append_cons hnewline hinside with hfront | hback
    · exact habsent hfront
    · exact hnonempty (List.infix_nil.mp hback)

theorem flatten_infix_of_prefix {sent payload : List Bytes}
    (hsent : sent <+: payload) : sent.flatten <:+: payload.flatten := by
  obtain ⟨rest, rfl⟩ := hsent
  rw [List.flatten_append]
  exact (List.prefix_append _ _).isInfix

variable {channel : LogChannel}

theorem emitPayload_spec {masked : Bytes} (newline : Bool) (hopen : ¬closed channel) :
    Triple (fun state => Standing known closed buffers state ∧
        ∀ pattern ∈ SecretMasker.patternsOf state.masker.masks, ¬pattern <:+: masked)
      (emitPayload environment (if newline then masked ++ [newlineByte] else masked) channel)
      (fun _ => Standing known (closedAfter closed newline channel) buffers)
      (Stopped known) := by
  unfold emitPayload
  set payload := if newline then masked ++ [newlineByte] else masked with hpayload
  rintro state ⟨hstanding, hmasked⟩
  by_cases hempty : payload = []
  · rw [if_pos hempty]
    exact ⟨hstanding.hidden.close fun _ => .inl, hstanding.buffers_eq⟩
  rw [if_neg hempty]
  obtain ⟨result, sent, hsent, hok, hexec⟩ := exec_emitChunks environment
    channel (chunks maxLogFrameBytes payload) state
  have hinside : sent.flatten <:+: payload := by
    have hflatten := flatten_infix_of_prefix hsent
    rwa [flatten_chunks] at hflatten
  have hsentHidden (closed' : LogChannel → Prop) (hclosed : ∀ other, closed other → closed' other)
      (hterminated : ¬closed' channel → Terminated sent.flatten) :
      AllHidden known closed'
        { state with
          events := state.events ++ sent.map fun chunk =>
            ⟨environment.groupId, channel, chunk⟩ } := by
    intro secret start hregistered
    have hsecret := hstanding.hidden secret start hregistered
    refine hsecret.sent hopen (fun line hline hsentLine => ?_) hclosed hterminated
    exact not_infix_payload newline hsecret.masked hmasked hline (hsentLine.trans hinside)
  rw [hexec]
  cases result with
  | error => exact hsentHidden _ (fun _ _ => trivial) fun hnot => absurd trivial hnot
  | ok =>
    refine ⟨hsentHidden _ (fun _ => .inl) fun hnot => ?_,
      fun stream => (buffer_congr rfl rfl stream).trans (hstanding.buffers_eq stream)⟩
    rw [hok rfl, flatten_chunks, hpayload]
    cases newline with
    | false => exact absurd (.inr ⟨rfl, rfl⟩) hnot
    | true => exact .inr ⟨masked, rfl⟩

theorem emitLine_spec (content : Bytes) (newline : Bool) (hopen : ¬closed channel) :
    Triple (Standing known closed buffers) (emitLine environment content newline channel)
      (fun _ => Standing known (closedAfter closed newline channel) buffers)
      (Stopped known) := by
  unfold emitLine
  refine triple_bind ?_ fun masked => emitPayload_spec environment newline hopen
  refine triple_focus fun state hstanding => ?_
  refine (SecretMasker.mask_spec environment.builds content state.masker.masks).consequence ?_ ?_ ?_
  · rintro masker rfl
    rfl
  · rintro masked masker ⟨hmasks, hmasked⟩
    refine ⟨hstanding.frame rfl rfl (hmasks ▸ List.Subset.refl _) (buffer_congr rfl rfl), ?_⟩
    rw [hmasks]
    exact hmasked
  · intro masker hmasks
    have hnext : AllHidden known closed { state with masker } :=
      hstanding.hidden.frame rfl rfl (hmasks ▸ List.Subset.refl _)
    exact hnext.stopped

theorem Standing.closedAfter {newline : Bool} (hstanding : Standing known closed buffers state) :
    Standing known (closedAfter closed newline channel) buffers state :=
  ⟨hstanding.hidden.close fun _ => .inl, hstanding.buffers_eq⟩

theorem closedAfter_true (channel : LogChannel) :
    AutomataCi.closedAfter closed true channel = closed := by
  funext other
  simp [AutomataCi.closedAfter]

theorem emitTerminated_spec (content : Bytes) (hopen : ¬closed channel) :
    Triple (Standing known closed buffers) (emitLine environment content true channel)
      (fun _ => Standing known closed buffers) (Stopped known) := by
  refine (emitLine_spec environment content true hopen).consequence
    (fun _ hstanding => hstanding) (fun _ state hstanding => ?_)
    (fun _ hstopped => hstopped)
  rwa [closedAfter_true] at hstanding

theorem emitWorkflowLine_spec (line : WorkflowLine) (newline : Bool) (hopen : ¬closed channel) :
    Triple (Standing known closed buffers) (emitWorkflowLine environment line newline channel)
      (fun _ => Standing known (AutomataCi.closedAfter closed newline channel)
        buffers) (Stopped known) := by
  unfold emitWorkflowLine
  split
  · exact emitLine_spec environment _ newline hopen
  · refine triple_bind (emitTerminated_spec environment _ hopen) fun _ => ?_
    refine triple_bind (ensureActive_spec environment) fun _ => ?_
    refine triple_modify fun state hstanding => ?_
    exact hstanding.closedAfter.frame rfl rfl (List.Subset.refl _) (buffer_congr rfl rfl)
  · exact (emitTerminated_spec environment _ hopen).consequence (fun _ hstanding => hstanding)
      (fun _ _ hstanding => hstanding.closedAfter)
      (fun _ hstopped => hstopped)
  · exact triple_pure fun _ hstanding => hstanding.closedAfter

theorem processLine_spec (content : Bytes) (newline : Bool) (hopen : ¬closed channel) :
    Triple (Standing known closed buffers) (processLine environment content newline channel)
      (fun _ => Standing known (AutomataCi.closedAfter closed newline channel)
        buffers) (Stopped known) := by
  unfold processLine
  refine triple_bind (ensureActive_spec environment) fun _ => ?_
  refine triple_bind (triple_get fun _ hstanding => hstanding) fun _ => ?_
  refine triple_bind (triple_check (fun _ _ hstanding _ => hstanding)
    fun _ hstanding => hstanding.hidden.stopped) fun observed => ?_
  refine triple_bind (triple_modify_keeps fun state hstanding => ?_) fun _ => ?_
  · exact hstanding.frame rfl rfl (List.Subset.refl _) (buffer_congr rfl rfl)
  refine triple_bind (registerDynamicMasks_spec observed.1) fun _ => ?_
  refine triple_bind (emitWorkflowLine_spec environment observed.1 newline hopen) fun _ => ?_
  exact ensureActive_spec environment

/-! A line which was processed registers the masks of its command, from the
number of events sent before it. -/

def dynamicMasks : WorkflowLine → List Text
  | .command (.registerMask masks) => masks
  | .command (.stopCommands (some tokenMask)) => [tokenMask]
  | _ => []

def Recorded (masks : List Text) (start : Nat) (state : PhaseOutputState) : Prop :=
  ∀ mask ∈ masks, (mask, start) ∈ state.registrations

section Registrations

variable {kept : PhaseOutputState → Prop} {masks : List Text} {start : Nat}

theorem onMasker_keeps {α : Type} {action : MaskerM α}
    (hkept : ∀ state masker, kept state → kept { state with masker }) :
    Triple kept (onMasker action) (fun _ => kept) (fun _ => True) := by
  refine triple_focus fun state hstate masker _ => ?_
  cases exec action masker with
  | mk result next =>
    cases result with
    | error => trivial
    | ok => exact hkept state next hstate

theorem ensureActive_keeps (hkept : ∀ state checks, kept state → kept { state with checks }) :
    Triple kept (ensureActive environment) (fun _ => kept) (fun _ => True) := by
  unfold ensureActive
  refine triple_bind (triple_get fun _ hstate => hstate) fun _ => ?_
  refine triple_bind (triple_modify_keeps fun state hstate => hkept state _ hstate) fun _ => ?_
  exact triple_check (fun _ _ hstate _ => hstate) fun _ _ => trivial

theorem registerSecret_records (secret : Text) :
    Triple (fun state => Recorded masks start state ∧ state.events.length = start)
      (registerSecret secret)
      (fun _ state => Recorded (masks ++ [secret]) start state ∧ state.events.length = start)
      (fun _ => True) := by
  refine triple_bind (onMasker_keeps fun _ _ hstate => hstate) fun _ => ?_
  refine triple_modify fun state hstate => ⟨fun mask hmask => ?_, hstate.2⟩
  rcases List.mem_append.mp hmask with hmem | hmem
  · exact List.mem_append_left _ (hstate.1 mask hmem)
  · rw [List.mem_singleton.mp hmem, ← hstate.2]
    exact List.mem_append_right _ (List.mem_singleton.mpr rfl)

theorem forM_registerSecret_records (values : List Text) :
    Triple (fun state => Recorded masks start state ∧ state.events.length = start)
      (values.forM registerSecret) (fun _ => Recorded (masks ++ values) start)
      (fun _ => True) := by
  induction values generalizing masks with
  | nil => exact triple_pure fun _ hstate => by simpa using hstate.1
  | cons value rest ih =>
    rw [List.append_cons]
    exact triple_bind (registerSecret_records value) fun _ => ih

theorem registerDynamicMasks_records (line : WorkflowLine) :
    Triple (fun state => state.events.length = start) (registerDynamicMasks line)
      (fun _ => Recorded (dynamicMasks line) start) (fun _ => True) := by
  have hnone : ∀ state : PhaseOutputState, state.events.length = start →
      Recorded [] start state ∧ state.events.length = start :=
    fun _ hstate => ⟨by simp [Recorded], hstate⟩
  unfold registerDynamicMasks
  split
  · exact (forM_registerSecret_records _).consequence hnone (fun _ _ hstate => hstate)
      fun _ _ => trivial
  · exact (registerSecret_records _).consequence hnone (fun _ _ hstate => hstate.1)
      fun _ _ => trivial
  next hmasks htoken =>
    refine triple_pure fun state hstate => ?_
    unfold dynamicMasks
    split
    · exact absurd rfl (hmasks _)
    · exact absurd rfl (htoken _)
    · exact (hnone state hstate).1

theorem emitLine_records (content : Bytes) (newline : Bool) :
    Triple (Recorded masks start) (emitLine environment content newline channel)
      (fun _ => Recorded masks start) (fun _ => True) := by
  refine triple_bind (onMasker_keeps fun _ _ hstate => hstate) fun masked => ?_
  generalize (if newline then masked ++ [newlineByte] else masked) = payload
  unfold emitPayload
  split
  · exact triple_pure fun _ hstate => hstate
  · refine triple_forM fun chunk _ => ?_
    refine triple_bind (triple_modify_keeps fun _ hstate => hstate) fun _ => ?_
    refine triple_bind (triple_get fun _ hstate => hstate) fun _ => ?_
    exact triple_check (fun _ _ hstate _ => hstate) fun _ _ => trivial

theorem emitWorkflowLine_records (line : WorkflowLine) (newline : Bool) :
    Triple (Recorded masks start) (emitWorkflowLine environment line newline channel)
      (fun _ => Recorded masks start) (fun _ => True) := by
  unfold emitWorkflowLine
  split
  · exact emitLine_records environment _ newline
  · refine triple_bind (emitLine_records environment _ true) fun _ => ?_
    refine triple_bind (ensureActive_keeps environment fun _ _ hstate => hstate) fun _ => ?_
    exact triple_modify_keeps fun _ hstate => hstate
  · exact emitLine_records environment _ true
  · exact triple_pure fun _ hstate => hstate

theorem processLine_records {content : Bytes} {newline : Bool} {line : WorkflowLine}
    {session : ActionsWorkflowCommandSession} :
    Triple (fun state => state.events.length = start ∧
        state.session.processLine (lineContent content newline) = .ok (line, session))
      (processLine environment content newline channel)
      (fun _ => Recorded (dynamicMasks line) start) (fun _ => True) := by
  unfold processLine
  refine triple_bind (ensureActive_keeps environment fun _ _ hstate => hstate) fun _ => ?_
  refine triple_bind (?_ : Triple _ get (fun observed state => state.events.length = start ∧
    observed.session.processLine (lineContent content newline) = .ok (line, session)) _) ?_
  · exact triple_get fun _ hstate => hstate
  intro observed
  refine triple_bind (?_ : Triple _ _ (fun result state => state.events.length = start ∧
    result = (line, session)) _) fun result => ?_
  · refine triple_check (fun state result hstate hresult => ⟨hstate.1, ?_⟩) fun _ _ => trivial
    rw [hstate.2] at hresult
    exact (Except.ok.inj hresult).symm
  refine triple_bind (triple_modify_keeps fun _ hstate => hstate) fun _ => ?_
  rintro state ⟨hstart, rfl⟩
  refine (triple_bind (registerDynamicMasks_records line) fun _ => triple_bind
    (emitWorkflowLine_records environment line newline) fun _ => ?_) state hstart
  exact ensureActive_keeps environment fun _ _ hstate => hstate

end Registrations

/-! ## One record -/

theorem buffer_withBuffer (state : PhaseOutputState)
    (stream other : ExecutionOutputStream) (bytes : Bytes) :
    (state.withBuffer stream bytes).buffer other =
      Function.update state.buffer stream bytes other := by
  cases stream <;> cases other <;> rfl

theorem Standing.withBuffer (hstanding : Standing known closed buffers state)
    (stream : ExecutionOutputStream) (bytes : Bytes) :
    Standing known closed (Function.update buffers stream bytes)
      (state.withBuffer stream bytes) := by
  have hhidden : AllHidden known closed (state.withBuffer stream bytes) := by
    cases stream with
    | stdout => exact hstanding.hidden.frame rfl rfl (List.Subset.refl _)
    | stderr => exact hstanding.hidden.frame rfl rfl (List.Subset.refl _)
  refine ⟨hhidden, fun other => ?_⟩
  rw [buffer_withBuffer, funext hstanding.buffers_eq]

theorem withBuffer_spec (stream : ExecutionOutputStream) (bytes : Bytes) :
    Triple (Standing known closed buffers)
      (modify fun state => state.withBuffer stream bytes : OutputM Unit)
      (fun _ => Standing known closed (Function.update buffers stream bytes))
      (Stopped known) :=
  triple_modify fun _ hstanding => hstanding.withBuffer stream bytes

theorem count_drop_idxOf_lt {bytes : Bytes} (hmem : newlineByte ∈ bytes) :
    (bytes.drop (bytes.idxOf newlineByte + 1)).count newlineByte < bytes.count newlineByte := by
  have hindex : bytes.idxOf newlineByte < bytes.length := List.idxOf_lt_length_iff.mpr hmem
  have hsplit : bytes.drop (bytes.idxOf newlineByte) =
      newlineByte :: bytes.drop (bytes.idxOf newlineByte + 1) := by
    rw [List.drop_eq_getElem_cons hindex, List.getElem_idxOf hindex]
  have hcount : (bytes.drop (bytes.idxOf newlineByte)).count newlineByte ≤
      bytes.count newlineByte :=
    (List.drop_sublist _ _).count_le _
  rw [hsplit, List.count_cons_self] at hcount
  omega

variable {stream : ExecutionOutputStream}

theorem completeLines_spec (hopen : ¬closed stream.channel) (fuel : Nat)
    (hfuel : (buffers stream).count newlineByte < fuel) :
    Triple (Standing known closed buffers) (completeLines environment stream fuel)
      (fun _ state => ∃ rest, newlineByte ∉ rest ∧
        Standing known closed (Function.update buffers stream rest) state)
      (Stopped known) := by
  induction fuel generalizing buffers with
  | zero => exact absurd hfuel (Nat.not_lt_zero _)
  | succ fuel ih =>
    unfold completeLines
    refine triple_bind (ensureActive_spec environment) fun _ => ?_
    intro state hstanding
    rw [exec_bind, exec_get, andThen_ok, hstanding.buffers_eq]
    by_cases hmem : newlineByte ∈ buffers stream
    · rw [if_pos hmem]
      set remaining := (buffers stream).drop
        ((buffers stream).idxOf newlineByte + 1) with hremaining
      have hcount : (Function.update buffers stream remaining stream).count newlineByte < fuel := by
        rw [Function.update_self]
        exact Nat.lt_of_lt_of_le (count_drop_idxOf_lt hmem) (Nat.le_of_lt_succ hfuel)
      refine triple_bind (withBuffer_spec stream remaining) (fun _ => ?_) state hstanding
      refine triple_bind (processLine_spec environment _ true hopen) fun _ => ?_
      rw [closedAfter_true]
      refine (ih hcount).consequence (fun _ hnext => hnext) ?_ (fun _ hstopped => hstopped)
      rintro _ next ⟨rest, hrest, hnext⟩
      rw [Function.update_idem] at hnext
      exact ⟨rest, hrest, hnext⟩
    · rw [if_neg hmem]
      refine ⟨buffers stream, hmem, ?_⟩
      rw [Function.update_eq_self]
      exact hstanding

theorem processCompleteLines_spec (hopen : ¬closed stream.channel) :
    Triple (Standing known closed buffers) (processCompleteLines environment stream)
      (fun _ state => ∃ rest, newlineByte ∉ rest ∧
        Standing known closed (Function.update buffers stream rest) state)
      (Stopped known) := by
  unfold processCompleteLines
  intro state hstanding
  rw [exec_bind, exec_get, andThen_ok, hstanding.buffers_eq]
  exact completeLines_spec environment hopen _ (Nat.lt_succ_self _) state hstanding

/-- The invariant of the sink: nothing waits in the buffer of a closed
pipe. -/
structure Quiet (known : SecretMasker) (closed : LogChannel → Prop)
    (state : PhaseOutputState) : Prop where
  hidden : AllHidden known closed state
  drained : ∀ stream : ExecutionOutputStream, closed stream.channel → state.buffer stream = []

theorem channel_injective : Function.Injective ExecutionOutputStream.channel := by
  intro stream other hchannel
  cases stream <;> cases other <;> first | rfl | cases hchannel

theorem quiet_of_standing
    (hdrained : ∀ other : ExecutionOutputStream, closed other.channel → buffers other = [])
    (hstanding : Standing known (AutomataCi.closedAfter closed false stream.channel)
      (Function.update buffers stream []) state) :
    Quiet known (AutomataCi.closedAfter closed false stream.channel) state := by
  refine ⟨hstanding.hidden, fun other hclosed => ?_⟩
  rw [hstanding.buffers_eq]
  by_cases hother : other = stream
  · rw [hother, Function.update_self]
  · rw [Function.update_of_ne hother]
    rcases hclosed with hclosed | ⟨-, hchannel⟩
    · exact hdrained other hclosed
    · exact absurd (channel_injective hchannel) hother

theorem finishStream_spec (stream : ExecutionOutputStream) :
    Triple (Quiet known closed) (finishStream environment stream) (fun _ => Quiet known
        (AutomataCi.closedAfter closed false stream.channel))
      (Stopped known) := by
  intro state hquiet
  have hstanding : Standing known closed state.buffer state := ⟨hquiet.hidden, fun _ => rfl⟩
  unfold finishStream
  rw [exec_bind, exec_get, andThen_ok]
  refine triple_bind (withBuffer_spec stream []) (fun _ => ?_) state hstanding
  by_cases hline : state.buffer stream = []
  · rw [if_pos hline]
    exact triple_pure fun next hnext => quiet_of_standing hquiet.drained hnext.closedAfter
  · rw [if_neg hline]
    -- the pipe was open, since its buffer was not empty
    have hopen : ¬closed stream.channel := fun hclosed => hline (hquiet.drained stream hclosed)
    exact (processLine_spec environment _ false hopen).consequence (fun _ hnext => hnext)
      (fun _ _ hnext => quiet_of_standing hquiet.drained hnext)
      (fun _ hstopped => hstopped)

theorem finishStreams_spec :
    Triple (Quiet known closed) (finishStreams environment)
      (fun _ => Stopped known) (Stopped known) := by
  unfold finishStreams
  refine triple_bind (finishStream_spec environment .stdout) fun _ => ?_
  exact (finishStream_spec environment .stderr).consequence
    (fun _ hquiet => hquiet) (fun _ _ hquiet => hquiet.hidden.stopped)
    (fun _ hstopped => hstopped)

theorem observeData_spec (bytes : Bytes) (hopen : ¬closed stream.channel) :
    Triple (Quiet known closed) (observeData environment stream bytes)
      (fun _ => Quiet known closed) (Stopped known) := by
  intro state hquiet
  have hstanding : Standing known closed state.buffer state := ⟨hquiet.hidden, fun _ => rfl⟩
  have hquietAfter {rest : Bytes} {next : PhaseOutputState} (hnext : Standing known closed
        (Function.update state.buffer stream rest) next) :
      Quiet known closed next := by
    refine ⟨hnext.hidden, fun other hclosed => ?_⟩
    have hother : other ≠ stream := by
      rintro rfl
      exact hopen hclosed
    rw [hnext.buffers_eq, Function.update_of_ne hother]
    exact hquiet.drained other hclosed
  unfold observeData
  rw [exec_bind, exec_modify, andThen_ok]
  refine triple_bind (processCompleteLines_spec environment hopen)
    (fun _ => ?_) _ (hstanding.withBuffer stream _)
  rintro after ⟨rest, -, hafter⟩
  rw [Function.update_idem] at hafter
  rw [exec_bind, exec_get, andThen_ok]
  have hcheck : Triple (Quiet known closed) (check (rejectIf (environment.limits.maximumLineBytes <
        (after.buffer stream).length)
        ExecutorAdapterErrorKind.invalidJob))
      (fun _ => Quiet known closed) (Stopped known) :=
    triple_check (fun _ _ hnext _ => hnext) fun _ hnext => hnext.hidden.stopped
  exact hcheck after (hquietAfter hafter)

theorem Quiet.ensureActive :
    Triple (Quiet known closed) (ensureActive environment)
      (fun _ => Quiet known closed) (Stopped known) := by
  intro state hquiet
  refine (ensureActive_spec environment).consequence (fun _ hnext => hnext)
    (fun _ next hnext => ?_) (fun _ hstopped => hstopped) state
    (⟨hquiet.hidden, fun _ => rfl⟩ : Standing known closed state.buffer state)
  refine ⟨hnext.hidden, fun stream hclosed => ?_⟩
  rw [hnext.buffers_eq]
  exact hquiet.drained stream hclosed

def closedBy (closed : LogChannel → Prop) (record : ExecutionOutputRecord) : LogChannel → Prop :=
  AutomataCi.closedAfter closed (!record.endOfStream) record.stream.channel

theorem observe_spec {record : ExecutionOutputRecord} (hopen : ¬closed record.stream.channel) :
    Triple (Quiet known closed) (observe environment record)
      (fun _ => Quiet known (closedBy closed record)) (Stopped known) := by
  unfold observe closedBy
  refine triple_bind (Quiet.ensureActive environment) fun _ => ?_
  cases record.endOfStream with
  | true => exact finishStream_spec environment record.stream
  | false =>
    rw [Bool.not_false, closedAfter_true]
    exact observeData_spec environment record.bytes hopen

end PhaseOutputState

/-! ## The whole output of a phase -/

/-- A record which closes a pipe is the last record of the pipe. -/
def ClosedOnce (records : List ExecutionOutputRecord) : Prop :=
  records.Pairwise fun earlier later =>
    earlier.endOfStream = true → later.stream ≠ earlier.stream

instance (records : List ExecutionOutputRecord) : Decidable (ClosedOnce records) :=
  inferInstanceAs (Decidable (records.Pairwise _))

namespace PhaseOutputSink

open PhaseOutputState

variable (environment : OutputEnvironment) {known : SecretMasker}

def Safe (known : SecretMasker) (closed : LogChannel → Prop) (state : PhaseOutputState) : Prop :=
  Quiet known closed state ∨ (active state = false ∧ Stopped known state)

variable {closed : LogChannel → Prop} {state : PhaseOutputState}

theorem stopped_of_safe (hsafe : Safe known closed state) : Stopped known state := by
  rcases hsafe with hquiet | ⟨-, hstopped⟩
  · exact hquiet.hidden.stopped
  · exact hstopped

theorem stopped_settle {error : ExecutorAdapterErrorKind} (hstopped : Stopped known state) :
    active (settle (.error error, state)) = false ∧
      Stopped known (settle (.error error, state)) := by
  refine ⟨by simp [active, settle], ?_⟩
  exact hstopped.frame rfl rfl (List.Subset.refl _)

theorem observe_safe {record : ExecutionOutputRecord} (hopen : ¬closed record.stream.channel)
    (hsafe : Safe known closed state) :
    Safe known (closedBy closed record) (observe environment state record).2 := by
  unfold observe
  by_cases hactive : active state = true
  · rw [if_pos hactive]
    rcases hsafe with hquiet | ⟨hinactive, -⟩
    · have hstep := observe_spec environment hopen state hquiet
      dsimp only
      cases hexec : exec (PhaseOutputState.observe environment record) state with
      | mk result next =>
        rw [hexec] at hstep
        cases result with
        | ok => exact .inl hstep
        | error => exact .inr (stopped_settle hstep)
    · rw [hactive] at hinactive
      cases hinactive
  · rw [if_neg hactive]
    exact .inr ⟨Bool.not_eq_true _ ▸ hactive, stopped_of_safe hsafe⟩

theorem observeAll_safe {records : List ExecutionOutputRecord} (hclosed : ClosedOnce records)
    (hopen : ∀ record ∈ records, ¬closed record.stream.channel) (hsafe : Safe known closed state) :
    ∃ closed', Safe known closed' (observeAll environment records state) := by
  induction records generalizing closed state with
  | nil => exact ⟨closed, hsafe⟩
  | cons record rest ih =>
    obtain ⟨hlater, hrest⟩ := List.pairwise_cons.mp hclosed
    rw [List.forall_mem_cons] at hopen
    refine ih hrest (fun later hmem hclosedLater => ?_) (observe_safe environment hopen.1 hsafe)
    -- a later record is on an open pipe, which this record did not close
    rcases hclosedLater with hbefore | ⟨hend, hchannel⟩
    · exact hopen.2 later hmem hbefore
    · refine hlater later hmem ?_ (channel_injective hchannel)
      rwa [Bool.not_eq_false'] at hend

theorem finish_stopped (hsafe : Safe known closed state) :
    ∃ next, Stopped known next ∧ (finish environment state).2.events = next.events ∧
      (finish environment state).2.registrations = next.registrations := by
  unfold finish
  by_cases hactive : active state = true
  · rw [if_pos hactive]
    refine ⟨settle (exec (finishStreams environment) state), ?_, rfl, rfl⟩
    rcases hsafe with hquiet | ⟨hinactive, -⟩
    · have hstep := finishStreams_spec environment state hquiet
      cases hexec : exec (finishStreams environment) state with
      | mk result =>
        rw [hexec] at hstep
        cases result with
        | ok => exact hstep
        | error => exact (stopped_settle hstep).2
    · rw [hactive] at hinactive
      cases hinactive
  · rw [if_neg hactive]
    exact ⟨state, stopped_of_safe hsafe, rfl, rfl⟩

theorem safe_new (masker : SecretMasker) :
    Safe masker (fun _ => False) (.new environment masker) := by
  refine .inl ⟨fun secret start hregistered => ?_, fun _ hclosed => hclosed.elim⟩
  rcases hregistered with ⟨hknown, rfl⟩ | hline
  · refine ⟨le_refl _, fun mask hmask => ?_, fun channel line hline => ?_, fun _ _ => .inl rfl⟩
    · obtain ⟨line, hline, hbytes⟩ := SecretMasker.mem_lineMasks.mp hmask
      have hpattern := hknown line (List.mem_cons_of_mem _ hline)
      obtain ⟨known, hmem, hval⟩ := List.mem_map.mp hpattern
      have heq : known = mask := Subtype.ext (hval.trans hbytes)
      exact heq ▸ hmem
    · change ¬utf8Bytes line <:+: []
      rw [List.infix_nil]
      exact utf8Bytes_ne_nil (ne_nil_of_mem_nonBlankLines line hline)
  · cases hline

/-- The state of a sink after the records of a phase and the final flush. -/
def completed (masker : SecretMasker) (records : List ExecutionOutputRecord) : PhaseOutputState :=
  (finish environment (observeAll environment records (.new environment masker))).2

/-- Whatever the records, the masks, the automaton builder, the log and the
cancellation do, the text sent on a channel after a secret was registered
contains neither the secret nor one of its lines. -/
theorem registered_secret_not_logged (masker : SecretMasker)
    (records : List ExecutionOutputRecord) (hclosed : ClosedOnce records)
    (secret : Text) (hlines : nonBlankLines secret ≠ []) (start : Nat)
    (hregistered : RegisteredFrom masker (completed environment masker records) secret start)
    (channel : LogChannel) :
    ∀ word ∈ secret :: nonBlankLines secret, ¬utf8Bytes word <:+: emittedOn channel
        ((completed environment masker records).events.drop start) := by
  obtain ⟨closed, hsafe⟩ := observeAll_safe environment hclosed
    (fun _ _ => id) (safe_new environment masker)
  obtain ⟨next, hstopped, hevents, hregistrations⟩ := finish_stopped environment hsafe
  unfold completed at hregistered ⊢
  rw [RegisteredFrom, hregistrations] at hregistered
  have habsent := (hstopped secret start hregistered).absent channel
  rw [hevents]
  rw [List.forall_mem_cons]
  refine ⟨fun hinside => ?_, habsent⟩
  -- the secret contains each of its lines
  obtain ⟨line, hline⟩ := List.exists_mem_of_ne_nil _ hlines
  exact habsent line hline ((utf8Bytes_isInfix (infix_of_mem_nonBlankLines hline)).trans hinside)

/-! A run whose second line shows the secret of its first line. -/

namespace OutputSample

def sampleEnvironment : OutputEnvironment where
  limits :=
    { maximumStreamBytes := 1000
      maximumLineBytes := 100
      maximumStreamLines := 10
      maximumCommands := 10
      maximumProperties := 10
      maximumNameBytes := 100
      maximumDataBytes := 100
      maximumMasks := 10 }
  policy := ⟨true⟩
  groupId := "job/step"
  builds := fun _ => true
  accepts := fun _ => true
  cancellation := fun _ => false

def secret : Text :=
  "hunter2".toList

def records : List ExecutionOutputRecord :=
  [⟨.stdout, utf8Bytes "::add-mask::hun".toList, false⟩,
    ⟨.stdout, utf8Bytes "ter2\nsay hun".toList, false⟩,
    ⟨.stdout, utf8Bytes "ter2".toList, false⟩,
    ⟨.stdout, [], true⟩]

end OutputSample

open OutputSample

theorem registered_secret_not_logged_masked :
    emittedOn .stdout (completed sampleEnvironment .new records).events =
      utf8Bytes "say ***".toList ∧
      ¬utf8Bytes secret <:+: emittedOn .stdout
        ((completed sampleEnvironment .new records).events.drop 0) :=
  ⟨by decide +kernel, registered_secret_not_logged sampleEnvironment .new records
      (by decide +kernel) secret (by decide +kernel) 0 (by decide +kernel)
      .stdout secret List.mem_cons_self⟩

end PhaseOutputSink

end AutomataCi
