import CloudTrailFilter.Process.Invariant

/-!
# The channel readers

`ChannelSyncRead` and `ChannelAsyncRead` turn the messages of a byte channel into reads of
whatever buffer sizes they are asked for, while the sender is still sending. Both lose, duplicate
and reorder nothing: the reads deliver the chunks, then the error if there is one, and report the
end of the bytes only when the channel is closed and empty.
-/

namespace CloudTrailFilter.Process
open CloudTrailFilter.Json CloudTrailFilter.Concurrency

section Machine
variable {capacity : ℕ} {τ : Type}

/-- A reader over a byte channel. The note is what it keeps of a read error. -/
structure ChannelRead (capacity : ℕ) (τ : Type) where
  rx : Channel ByteMsg capacity
  pending : Bytes
  note : τ

/-- One turn of the loop of a read: its answer, another turn, or nothing to receive yet. -/
inductive Turn (capacity : ℕ) (τ : Type) where
  | ready (result : ByteMsg) (reader : ChannelRead capacity τ)
  | goesOn (reader : ChannelRead capacity τ)
  | waits

/-- A turn of a read into a buffer of `buf` bytes. The guard against an empty buffer stands before
the loop; a read keeps its buffer, so it can as well stand in it. -/
def ChannelRead.turn (set : τ → String → τ) (reader : ChannelRead capacity τ) (buf : ℕ) : Turn capacity τ :=
  if buf = 0 then .ready (.ok []) reader
  else if reader.pending ≠ [] then
    let n := min buf reader.pending.length
    .ready (.ok (reader.pending.take n)) { reader with pending := reader.pending.drop n }
  else
    match reader.rx.recv with
    | .got (.ok bytes) rx => .goesOn { reader with rx := rx, pending := bytes }
    | .got (.error e) rx => .ready (.error e) { reader with rx := rx, note := set reader.note e }
    | .closed => .ready (.ok []) reader
    | .blocked => .waits

/-- The reader of the blocking task. Its note is `transport_error`. -/
abbrev ChannelSyncRead (capacity : ℕ) := ChannelRead capacity (Option String)

/-- The reader of `put_stream`, which keeps nothing of an error. -/
abbrev ChannelAsyncRead (capacity : ℕ) := ChannelRead capacity Unit

/-- `OnceLock::set`. -/
def setOnce (cell : Option String) (e : String) : Option String := cell.or (some e)

def ChannelSyncRead.read : ChannelSyncRead capacity → ℕ → Turn capacity (Option String) := ChannelRead.turn setOnce

def ChannelAsyncRead.pollRead : ChannelAsyncRead capacity → ℕ → Turn capacity Unit := ChannelRead.turn (fun _ _ => ())

/-- A reader with its sender: what is still to be sent, the read in progress with its buffer size,
and the reads that have returned. -/
structure ReadState (capacity : ℕ) (τ : Type) where
  toSend : List ByteMsg
  reader : ChannelRead capacity τ
  call : Option ℕ
  log : List (ℕ × ByteMsg)

inductive ReadAction where
  | send
  | close
  | call (buf : ℕ)
  | turn
deriving DecidableEq

/-- The reader has nothing to receive: a blocking read stays in its call, a poll returns `Pending`
and may come again with another buffer. -/
def ReadState.wait (parks : Bool) (s : ReadState capacity τ) : Option (ReadState capacity τ) :=
  if parks then none else some { s with call := none }

def readStep (read : ChannelRead capacity τ → ℕ → Turn capacity τ) (parks : Bool) (s : ReadState capacity τ) :
    ReadAction → Option (ReadState capacity τ)
  | .send =>
    match s.toSend with
    | [] => none
    | message :: rest =>
      match s.reader.rx.send message with
      | .sent rx => some { s with toSend := rest, reader := { s.reader with rx := rx } }
      | _ => none
  | .close =>
    if s.toSend = [] ∧ s.reader.rx.senderGone = false then
      some { s with reader := { s.reader with rx := s.reader.rx.dropSender } }
    else none
  | .call buf => if s.call = none then some { s with call := some buf } else none
  | .turn =>
    match s.call with
    | none => none
    | some buf =>
      match read s.reader buf with
      | .ready result reader => some { s with reader := reader, call := none, log := s.log ++ [(buf, result)] }
      | .goesOn reader => some { s with reader := reader }
      | .waits => s.wait parks

/-- The chunks, then an error or nothing. -/
def messages (chunks : List Bytes) (ending : Option String) : List ByteMsg :=
  chunks.map .ok ++ ending.toList.map .error

def ReadState.start (quiet : τ) (chunks : List Bytes) (ending : Option String) : ReadState capacity τ :=
  ⟨messages chunks ending, ⟨.empty, [], quiet⟩, none, []⟩

/-- The bytes of the reads that have returned. -/
def ReadState.delivered (s : ReadState capacity τ) : Bytes := carriedBytes (s.log.map Prod.snd)

end Machine

section Messages
variable {chunks : List Bytes} {ending : Option String}

def errorOf : ByteMsg → Option String
  | .ok _ => none
  | .error e => some e

@[simp] lemma errors_ok (bytes : Bytes) : [(.ok bytes : ByteMsg)].filterMap errorOf = [] := rfl

@[simp] lemma errors_error (e : String) : [(.error e : ByteMsg)].filterMap errorOf = [e] := rfl

lemma carriedBytes_messages : carriedBytes (messages chunks ending) = chunks.flatten := by
  cases ending <;> simp [messages]

lemma errors_chunks : (chunks.map (Except.ok : Bytes → ByteMsg)).filterMap errorOf = [] := by
  apply List.filterMap_eq_nil_iff.mpr
  intro message hmessage
  obtain ⟨chunk, -, rfl⟩ := List.mem_map.mp hmessage
  rfl

lemma errors_messages : (messages chunks ending).filterMap errorOf = ending.toList := by
  rw [messages, List.filterMap_append, errors_chunks]
  cases ending <;> simp

lemma carriedBytes_prefix {a b : List ByteMsg} (h : a <+: b) : carriedBytes a <+: carriedBytes b := by
  obtain ⟨t, rfl⟩ := h
  exact ⟨carriedBytes t, (carriedBytes_append a t).symm⟩

/-- The error comes last. -/
lemma received_error {received : List ByteMsg} {e : String} (h : received ++ [.error e] <+: messages chunks ending) :
    ending = some e ∧ received = chunks.map .ok ∧ received ++ [.error e] = messages chunks ending := by
  have hchunks : ¬ received ++ [.error e] <+: chunks.map (Except.ok : Bytes → ByteMsg) := by
    intro hinit
    have hmem := hinit.subset (List.mem_append_right received (List.mem_singleton_self _))
    obtain ⟨chunk, -, hchunk⟩ := List.mem_map.mp hmem
    cases hchunk
  cases ending with
  | none =>
    rw [messages, Option.toList_none, List.map_nil, List.append_nil] at h
    exact (hchunks h).elim
  | some e' =>
    rw [messages, Option.toList_some, List.map_singleton] at h ⊢
    rcases List.prefix_concat_iff.mp h with heq | hinit
    · obtain ⟨hreceived, he⟩ := List.append_inj' heq rfl
      cases he
      exact ⟨rfl, hreceived, heq⟩
    · exact (hchunks hinit).elim

end Messages

section Reading
variable {capacity : ℕ} {τ : Type} {set : τ → String → τ} {parks : Bool} {quiet : τ} {chunks : List Bytes}
  {ending : Option String}

/-- What a turn does, by the branch it takes. -/
inductive TurnCase (set : τ → String → τ) (reader : ChannelRead capacity τ) (buf : ℕ) : Turn capacity τ → Prop
  | empty : buf = 0 → TurnCase set reader buf (.ready (.ok []) reader)
  | pending (taken rest : Bytes) : 0 < buf → reader.pending = taken ++ rest → taken ≠ [] → taken.length ≤ buf →
      TurnCase set reader buf (.ready (.ok taken) { reader with pending := rest })
  | chunk (bytes : Bytes) (rx : Channel ByteMsg capacity) : 0 < buf → reader.pending = [] →
      reader.rx.Took (.ok bytes) rx → TurnCase set reader buf (.goesOn { reader with rx := rx, pending := bytes })
  | failed (e : String) (rx : Channel ByteMsg capacity) : 0 < buf → reader.pending = [] →
      reader.rx.Took (.error e) rx →
      TurnCase set reader buf (.ready (.error e) { reader with rx := rx, note := set reader.note e })
  | closed : 0 < buf → reader.pending = [] → reader.rx.senderGone = true → reader.rx.received = reader.rx.log →
      TurnCase set reader buf (.ready (.ok []) reader)
  | waits : 0 < buf → reader.rx.queue = [] → reader.rx.senderGone = false → TurnCase set reader buf .waits

lemma turn_cases (reader : ChannelRead capacity τ) (buf : ℕ) : TurnCase set reader buf (reader.turn set buf) := by
  unfold ChannelRead.turn
  by_cases hbuf : buf = 0
  · rw [if_pos hbuf]
    exact .empty hbuf
  · have hpos : 0 < buf := by omega
    rw [if_neg hbuf]
    by_cases hpending : reader.pending = []
    · rw [if_neg (not_not.mpr hpending)]
      cases hrecv : reader.rx.recv with
      | blocked =>
        obtain ⟨hqueue, hgone⟩ := Channel.empty_of_blocked hrecv
        exact .waits hpos hqueue hgone
      | closed =>
        obtain ⟨hgone, hall⟩ := Channel.drained_of_closed hrecv
        exact .closed hpos hpending hgone hall
      | got message rx =>
        have htook := Channel.took_of_recv hrecv
        cases message with
        | ok bytes => exact .chunk bytes rx hpos hpending htook
        | error e => exact .failed e rx hpos hpending htook
    · rw [if_pos hpending]
      have hlen : 0 < reader.pending.length := List.length_pos_iff.mpr hpending
      refine .pending _ _ hpos (List.take_append_drop _ _).symm ?_ ?_
      · apply List.ne_nil_of_length_pos
        rw [List.length_take]
        omega
      · rw [List.length_take]
        omega

/-- An answer after which nothing more comes: an error, or no bytes for a buffer with room. -/
def EndsReading (entry : ℕ × ByteMsg) : Prop := (∃ e, entry.2 = .error e) ∨ (0 < entry.1 ∧ entry.2 = .ok [])

/-- What the reads so far have to do with the messages: they delivered the bytes of the messages
received up to the pending ones, and returned the errors received. After an end everything has
been received. -/
structure Faithful (set : τ → String → τ) (quiet : τ) (chunks : List Bytes) (ending : Option String)
    (s : ReadState capacity τ) : Prop where
  sent : s.reader.rx.log ++ s.toSend = messages chunks ending
  bytes : s.delivered ++ s.reader.pending = carriedBytes s.reader.rx.received
  errors : (s.log.map Prod.snd).filterMap errorOf = s.reader.rx.received.filterMap errorOf
  note : s.reader.note = (s.reader.rx.received.filterMap errorOf).foldl set quiet
  closed : s.reader.rx.senderGone = true → s.toSend = []
  ended : (∃ entry ∈ s.log, EndsReading entry) → s.reader.rx.received = messages chunks ending ∧ s.reader.pending = []
  listening : s.reader.rx.receiverGone = false

lemma faithful_start : Faithful set quiet chunks ending (ReadState.start quiet chunks ending : ReadState capacity τ) := by
  constructor <;> simp [ReadState.start, ReadState.delivered, Channel.empty, Channel.log, carriedBytes]

lemma Faithful.received_prefix {s : ReadState capacity τ} (h : Faithful set quiet chunks ending s) :
    s.reader.rx.received <+: messages chunks ending := by
  rw [← h.sent]
  exact s.reader.rx.received_prefix_log.trans (List.prefix_append _ _)

/-- What has been taken from the channel is still a beginning of the messages. -/
lemma Faithful.took_prefix {s : ReadState capacity τ} (h : Faithful set quiet chunks ending s) {message : ByteMsg}
    {rx : Channel ByteMsg capacity} (htook : s.reader.rx.Took message rx) :
    s.reader.rx.received ++ [message] <+: messages chunks ending := by
  rw [← h.sent]
  exact htook.prefix_log.trans (List.prefix_append _ _)

/-- Before a message is taken, no read has ended. -/
lemma Faithful.notEnded {s : ReadState capacity τ} (h : Faithful set quiet chunks ending s) {message : ByteMsg}
    {rx : Channel ByteMsg capacity} (htook : s.reader.rx.Took message rx) : ¬ ∃ entry ∈ s.log, EndsReading entry := by
  intro hend
  have hle := (h.took_prefix htook).length_le
  rw [(h.ended hend).1, List.length_append, List.length_singleton] at hle
  omega

lemma Faithful.send {s : ReadState capacity τ} (h : Faithful set quiet chunks ending s) {message : ByteMsg}
    {rest : List ByteMsg} (hrest : s.toSend = message :: rest) {rx : Channel ByteMsg capacity}
    (hgrew : s.reader.rx.Grew message rx) :
    Faithful set quiet chunks ending { s with toSend := rest, reader := { s.reader with rx := rx } } where
  sent := by
    have hsent := h.sent
    rw [hrest] at hsent
    simp [hgrew.log, hsent]
  bytes := by simpa [hgrew.received, ReadState.delivered] using h.bytes
  errors := by simpa [hgrew.received] using h.errors
  note := by simpa [hgrew.received] using h.note
  closed hgone := by
    rw [hgrew.senderGone] at hgone
    have hnil := h.closed hgone
    rw [hrest] at hnil
    cases hnil
  ended hend := by simpa [hgrew.received] using h.ended hend
  listening := hgrew.receiverGone

lemma Faithful.close {s : ReadState capacity τ} (h : Faithful set quiet chunks ending s) (hdone : s.toSend = []) :
    Faithful set quiet chunks ending { s with reader := { s.reader with rx := s.reader.rx.dropSender } } where
  sent := by simpa using h.sent
  bytes := by simpa [ReadState.delivered] using h.bytes
  errors := by simpa using h.errors
  note := by simpa using h.note
  closed _ := hdone
  ended hend := by simpa using h.ended hend
  listening := by simpa using h.listening

/-- The next chunk, which the read then takes its bytes from. -/
lemma Faithful.chunk {s : ReadState capacity τ} (h : Faithful set quiet chunks ending s) {bytes : Bytes}
    {rx : Channel ByteMsg capacity} (hpending : s.reader.pending = []) (htook : s.reader.rx.Took (.ok bytes) rx) :
    Faithful set quiet chunks ending { s with reader := { s.reader with rx := rx, pending := bytes } } where
  sent := by simpa [htook.log] using h.sent
  bytes := by
    have hbytes := h.bytes
    rw [hpending, List.append_nil] at hbytes
    simp only [htook.received, carriedBytes_append, carriedBytes_ok, ← hbytes]
    rfl
  errors := by simpa [htook.received] using h.errors
  note := by simpa [htook.received] using h.note
  closed hgone := h.closed (by simpa [htook.senderGone] using hgone)
  ended hend := (h.notEnded htook hend).elim
  listening := by simpa [htook.receiverGone] using h.listening

/-- A read that returns, from what its answer and its reader owe to the invariant. -/
lemma Faithful.answer {s : ReadState capacity τ} (h : Faithful set quiet chunks ending s) {buf : ℕ} {result : ByteMsg}
    {reader : ChannelRead capacity τ} (hlog : reader.rx.log = s.reader.rx.log)
    (hbytes : carriedBytes reader.rx.received = s.delivered ++ carriedBytes [result] ++ reader.pending)
    (herrors : reader.rx.received.filterMap errorOf = s.reader.rx.received.filterMap errorOf ++ [result].filterMap errorOf)
    (hnote : reader.note = ([result].filterMap errorOf).foldl set s.reader.note)
    (hgone : reader.rx.senderGone = s.reader.rx.senderGone) (hlistening : reader.rx.receiverGone = s.reader.rx.receiverGone)
    (hended : (∃ entry ∈ s.log ++ [(buf, result)], EndsReading entry) →
      reader.rx.received = messages chunks ending ∧ reader.pending = []) :
    Faithful set quiet chunks ending { s with reader := reader, call := none, log := s.log ++ [(buf, result)] } where
  sent := by simpa [hlog] using h.sent
  bytes := by simpa [ReadState.delivered] using hbytes.symm
  errors := by
    rw [herrors, ← h.errors]
    simp
  note := by
    rw [hnote, herrors, List.foldl_append, ← h.note]
  closed hg := h.closed (by rwa [hgone] at hg)
  ended := hended
  listening := by
    rw [hlistening]
    exact h.listening

lemma ended_append {log : List (ℕ × ByteMsg)} {entry : ℕ × ByteMsg} (hquiet : ¬ EndsReading entry)
    (h : ∃ e ∈ log ++ [entry], EndsReading e) : ∃ e ∈ log, EndsReading e := by
  obtain ⟨e, hmem, hend⟩ := h
  rcases List.mem_append.mp hmem with hmem | hmem
  · exact ⟨e, hmem, hend⟩
  · rw [List.mem_singleton.mp hmem] at hend
    exact (hquiet hend).elim

/-- What a closed and empty channel has left: nothing. -/
lemma Faithful.drained {s : ReadState capacity τ} (h : Faithful set quiet chunks ending s)
    (hgone : s.reader.rx.senderGone = true) (hall : s.reader.rx.received = s.reader.rx.log) :
    s.reader.rx.received = messages chunks ending := by
  have hsent := h.sent
  rwa [h.closed hgone, List.append_nil, ← hall] at hsent

lemma Faithful.framed {s : ReadState capacity τ} (h : Faithful set quiet chunks ending s) (call : Option ℕ) :
    Faithful set quiet chunks ending { s with call := call } :=
  ⟨h.sent, h.bytes, h.errors, h.note, h.closed, h.ended, h.listening⟩

/-- A turn of the read that is on. -/
lemma Faithful.turned {s s' : ReadState capacity τ} (h : Faithful set quiet chunks ending s)
    (hstep : readStep (ChannelRead.turn set) parks s .turn = some s') : Faithful set quiet chunks ending s' := by
  cases hcall : s.call with
  | none => simp [readStep, hcall] at hstep
  | some buf =>
    simp only [readStep, hcall] at hstep
    have hturn : TurnCase set s.reader buf _ := turn_cases s.reader buf
    generalize s.reader.turn set buf = turn at hturn hstep
    have hbytes := h.bytes
    cases hturn with
    | empty hbuf =>
      cases hstep
      refine h.answer rfl (by simpa using hbytes.symm) (by simp) rfl rfl rfl ?_
      intro hend
      refine h.ended (ended_append ?_ hend)
      rintro (⟨e, he⟩ | ⟨hpos, -⟩)
      · cases he
      · omega
    | pending taken rest hpos hpending htaken hfits =>
      cases hstep
      rw [hpending] at hbytes
      refine h.answer rfl (by simp [← hbytes]) (by simp) rfl rfl rfl ?_
      intro hend
      have hold := h.ended (ended_append ?_ hend)
      · simp [hpending, htaken] at hold
      · rintro (⟨e, he⟩ | ⟨-, he⟩)
        · cases he
        · exact htaken (Except.ok.inj he)
    | chunk bytes rx hpos hpending htook =>
      cases hstep
      have hnext := h.chunk hpending htook
      rw [hcall] at hnext
      exact hnext
    | failed e rx hpos hpending htook =>
      cases hstep
      rw [hpending, List.append_nil] at hbytes
      refine h.answer htook.log (by simp [htook.received, hbytes, hpending]) (by simp [htook.received]) (by simp)
        htook.senderGone htook.receiverGone ?_
      intro _
      obtain ⟨-, -, hall⟩ := received_error (h.took_prefix htook)
      exact ⟨by rw [htook.received, hall], hpending⟩
    | closed hpos hpending hgone hall =>
      cases hstep
      refine h.answer rfl (by simpa using hbytes.symm) (by simp) rfl rfl rfl ?_
      intro _
      exact ⟨h.drained hgone hall, hpending⟩
    | waits hpos hqueue hgone =>
      unfold ReadState.wait at hstep
      dsimp only at hstep
      split_ifs at hstep
      cases hstep
      exact h.framed _

lemma Faithful.step {s s' : ReadState capacity τ} {action : ReadAction} (h : Faithful set quiet chunks ending s)
    (hstep : readStep (ChannelRead.turn set) parks s action = some s') : Faithful set quiet chunks ending s' := by
  cases action with
  | send =>
    cases hsend : s.toSend with
    | nil => simp [readStep, hsend] at hstep
    | cons message rest =>
      cases hsent : s.reader.rx.send message with
      | blocked => simp [readStep, hsend, hsent] at hstep
      | refused => simp [readStep, hsend, hsent] at hstep
      | sent rx =>
        simp only [readStep, hsend, hsent, Option.some.injEq] at hstep
        rw [← hstep]
        exact h.send hsend (Channel.grew_of_send hsent)
  | close =>
    simp only [readStep] at hstep
    split_ifs at hstep with hdone
    cases hstep
    exact h.close hdone.1
  | call buf =>
    simp only [readStep] at hstep
    split_ifs at hstep
    cases hstep
    exact h.framed _
  | turn => exact h.turned hstep

/-- The invariant of every run. -/
theorem Faithful.of_reachable {s : ReadState capacity τ}
    (h : Reachable (readStep (ChannelRead.turn set) parks) (ReadState.start quiet chunks ending) s) :
    Faithful set quiet chunks ending s :=
  h.invariant faithful_start (fun _ _ _ hs hstep => hs.step hstep)

lemma Faithful.delivered_front {s : ReadState capacity τ} (h : Faithful set quiet chunks ending s) :
    s.delivered <+: chunks.flatten := by
  have hreceived := carriedBytes_prefix h.received_prefix
  rw [carriedBytes_messages, ← h.bytes] at hreceived
  exact (List.prefix_append _ _).trans hreceived

/-- After an end, the reads have delivered the chunks and returned the error. -/
lemma Faithful.complete {s : ReadState capacity τ} (h : Faithful set quiet chunks ending s)
    (hend : s.reader.rx.received = messages chunks ending ∧ s.reader.pending = []) :
    s.delivered = chunks.flatten ∧ ∀ e, ending = some e → ∃ buf, (buf, .error e) ∈ s.log := by
  obtain ⟨hreceived, hpending⟩ := hend
  constructor
  · have hbytes := h.bytes
    rwa [hpending, List.append_nil, hreceived, carriedBytes_messages] at hbytes
  · intro e he
    have herrors := h.errors
    rw [hreceived, errors_messages, he, Option.toList_some] at herrors
    have hmem : e ∈ (s.log.map Prod.snd).filterMap errorOf := by
      rw [herrors]
      exact List.mem_singleton_self e
    obtain ⟨message, hmessage, herror⟩ := List.mem_filterMap.mp hmem
    obtain ⟨⟨buf, message⟩, hentry, rfl⟩ := List.mem_map.mp hmessage
    cases message with
    | ok bytes => cases herror
    | error e' =>
      cases herror
      exact ⟨buf, hentry⟩

/-- Reads that are no end have each delivered at least one byte. -/
lemma length_le_carriedBytes {log : List (ℕ × ByteMsg)} (h : ∀ entry ∈ log, ¬ EndsReading entry) :
    (log.filter (fun entry => 0 < entry.1)).length ≤ (carriedBytes (log.map Prod.snd)).length := by
  induction log with
  | nil => simp
  | cons entry log ih =>
    have hrest := ih (fun e he => h e (List.mem_cons_of_mem _ he))
    have hentry := h entry List.mem_cons_self
    obtain ⟨buf, message⟩ := entry
    have hcons : carriedBytes (message :: log.map Prod.snd) = carriedBytes [message] ++ carriedBytes (log.map Prod.snd) :=
      carriedBytes_append [message] _
    rw [List.map_cons, hcons, List.length_append]
    cases message with
    | error e => exact (hentry (.inl ⟨e, rfl⟩)).elim
    | ok bytes =>
      rw [carriedBytes_ok]
      by_cases hbuf : 0 < buf
      · have hbytes : 0 < bytes.length := by
          apply List.length_pos_iff.mpr
          rintro rfl
          exact hentry (.inr ⟨hbuf, rfl⟩)
        simp only [List.filter_cons, hbuf, decide_true, if_true, List.length_cons]
        omega
      · simp only [List.filter_cons, hbuf, decide_false, Bool.false_eq_true, if_false]
        omega

/-- Once there were more reads with room than there are bytes, one of them has been an end. -/
lemma Faithful.exhausted {s : ReadState capacity τ} (h : Faithful set quiet chunks ending s)
    (hmany : chunks.flatten.length < (s.log.filter (fun entry => 0 < entry.1)).length) :
    ∃ entry ∈ s.log, EndsReading entry := by
  by_contra hnone
  push Not at hnone
  have hle := length_le_carriedBytes hnone
  have hbytes := h.delivered_front.length_le
  unfold ReadState.delivered at hbytes
  omega

/-- A read in progress is never stuck: it goes on, or the sender can. -/
lemma Faithful.live {s : ReadState capacity τ} (h : Faithful set quiet chunks ending s) (hroom : 0 < capacity) {buf : ℕ}
    (hcall : s.call = some buf) :
    ∃ action, (∀ n, action ≠ .call n) ∧ (readStep (ChannelRead.turn set) parks s action).isSome := by
  have hturn : TurnCase set s.reader buf _ := turn_cases s.reader buf
  cases hnext : s.reader.turn set buf with
  | ready result reader => exact ⟨.turn, by simp, by simp [readStep, hcall, hnext]⟩
  | goesOn reader => exact ⟨.turn, by simp, by simp [readStep, hcall, hnext]⟩
  | waits =>
    rw [hnext] at hturn
    cases hturn with
    | waits hpos hqueue hgone =>
      cases hsend : s.toSend with
      | nil => exact ⟨.close, by simp, by simp [readStep, hsend, hgone]⟩
      | cons message rest =>
        cases hsent : s.reader.rx.send message with
        | blocked => exact (Channel.send_of_empty hroom hqueue message hsent).elim
        | refused =>
          have hgone' := Channel.gone_of_refused hsent
          rw [h.listening] at hgone'
          cases hgone'
        | sent rx => exact ⟨.send, by simp, by simp [readStep, hsend, hsent]⟩

/-- The turn with which a read returns. -/
lemma turn_of_answer {read : ChannelRead capacity τ → ℕ → Turn capacity τ} {s s' : ReadState capacity τ} {buf : ℕ}
    {result : ByteMsg} (hstep : readStep read parks s .turn = some s') (hlog : s'.log = s.log ++ [(buf, result)]) :
    read s.reader buf = .ready result s'.reader := by
  have hgrows : s.log ≠ s.log ++ [(buf, result)] := by simp
  cases hcall : s.call with
  | none => simp [readStep, hcall] at hstep
  | some size =>
    simp only [readStep, hcall] at hstep
    cases hread : read s.reader size with
    | ready answer reader =>
      rw [hread] at hstep
      cases hstep
      obtain ⟨rfl, rfl⟩ : size = buf ∧ answer = result := by simpa using hlog
      exact hread
    | goesOn reader =>
      rw [hread] at hstep
      cases hstep
      exact (hgrows hlog).elim
    | waits =>
      rw [hread] at hstep
      dsimp only [ReadState.wait] at hstep
      split_ifs at hstep
      cases hstep
      exact (hgrows hlog).elim

end Reading

section Readers
variable {capacity : ℕ} {τ : Type}

/-- A reader that loses, duplicates and reorders nothing, in every run of it with its sender. -/
structure ReadsFaithfully (read : ChannelRead capacity τ → ℕ → Turn capacity τ) (parks : Bool) (quiet : τ)
    (chunks : List Bytes) (ending : Option String) : Prop where
  delivered_front : ∀ s, Reachable (readStep read parks) (.start quiet chunks ending) s →
    s.delivered <+: chunks.flatten
  /-- An end comes after all bytes, and after the error if there is one. -/
  at_end : ∀ s, Reachable (readStep read parks) (.start quiet chunks ending) s →
    (∃ entry ∈ s.log, EndsReading entry) →
    s.delivered = chunks.flatten ∧ ∀ e, ending = some e → ∃ buf, (buf, .error e) ∈ s.log
  /-- No bytes for a buffer with room: the channel is closed, and everything was returned before. -/
  zero_bytes : ∀ s s' buf, Reachable (readStep read parks) (.start quiet chunks ending) s →
    readStep read parks s .turn = some s' → s'.log = s.log ++ [(buf, .ok [])] → 0 < buf →
    s.reader.rx.senderGone = true ∧ s.delivered = chunks.flatten ∧
      ∀ e, ending = some e → ∃ n, (n, .error e) ∈ s.log
  /-- The error is returned after all bytes. -/
  error_last : ∀ s s' buf e, Reachable (readStep read parks) (.start quiet chunks ending) s →
    readStep read parks s .turn = some s' → s'.log = s.log ++ [(buf, .error e)] →
    ending = some e ∧ s.delivered = chunks.flatten
  /-- A read into an empty buffer returns at once and consumes nothing. -/
  empty_buffer : ∀ s, Reachable (readStep read parks) (.start quiet chunks ending) s → s.call = some 0 →
    readStep read parks s .turn = some { s with call := none, log := s.log ++ [(0, .ok [])] }
  fits : ∀ s s' buf bytes, Reachable (readStep read parks) (.start quiet chunks ending) s →
    readStep read parks s .turn = some s' → s'.log = s.log ++ [(buf, .ok bytes)] → bytes.length ≤ buf
  /-- More reads with room than there are bytes reach an end. -/
  exhausted : ∀ s, Reachable (readStep read parks) (.start quiet chunks ending) s →
    chunks.flatten.length < (s.log.filter (fun entry => 0 < entry.1)).length → ∃ entry ∈ s.log, EndsReading entry
  /-- No read waits for ever. -/
  live : 0 < capacity → ∀ s buf, Reachable (readStep read parks) (.start quiet chunks ending) s → s.call = some buf →
    ∃ action, (∀ n, action ≠ .call n) ∧ (readStep read parks s action).isSome

lemma turn_faithful (set : τ → String → τ) (parks : Bool) (quiet : τ) (chunks : List Bytes) (ending : Option String) :
    ReadsFaithfully (ChannelRead.turn set : ChannelRead capacity τ → ℕ → Turn capacity τ) parks quiet chunks ending where
  delivered_front s h := (Faithful.of_reachable h).delivered_front
  at_end s h hend := (Faithful.of_reachable h).complete ((Faithful.of_reachable h).ended hend)
  zero_bytes s s' buf h hstep hlog hpos := by
    have hf := Faithful.of_reachable h
    have hturn : TurnCase set s.reader buf _ := turn_cases s.reader buf
    rw [turn_of_answer hstep hlog] at hturn
    generalize hreader : s'.reader = reader at hturn
    cases hturn with
    | empty hbuf => omega
    | pending _ rest _ _ htaken _ => exact (htaken rfl).elim
    | closed _ hpending hgone hall => exact ⟨hgone, hf.complete ⟨hf.drained hgone hall, hpending⟩⟩
  error_last s s' buf e h hstep hlog := by
    have hf := Faithful.of_reachable h
    have hturn : TurnCase set s.reader buf _ := turn_cases s.reader buf
    rw [turn_of_answer hstep hlog] at hturn
    generalize hreader : s'.reader = reader at hturn
    cases hturn with
    | failed _ rx _ hpending htook =>
      obtain ⟨hending, hreceived, -⟩ := received_error (hf.took_prefix htook)
      have hbytes := hf.bytes
      rw [hpending, List.append_nil, hreceived, carriedBytes_chunks] at hbytes
      exact ⟨hending, hbytes⟩
  empty_buffer s h hcall := by simp [readStep, hcall, ChannelRead.turn]
  fits s s' buf bytes h hstep hlog := by
    have hturn : TurnCase set s.reader buf _ := turn_cases s.reader buf
    rw [turn_of_answer hstep hlog] at hturn
    generalize hreader : s'.reader = reader at hturn
    cases hturn with
    | empty hbuf => simp
    | pending _ rest _ _ _ hfits => exact hfits
    | closed => simp
  exhausted s h hmany := (Faithful.of_reachable h).exhausted hmany
  live hroom s buf h hcall := (Faithful.of_reachable h).live hroom hcall

example :
    (runActions (readStep ChannelSyncRead.read true) (.start none [[1, 2, 3], []] (some "reset") : ReadState 4 (Option String))
      [.send, .call 0, .turn, .call 2, .turn, .turn, .send, .send, .close, .call 2, .turn, .call 2, .turn, .turn]).map
        ReadState.log = some [(0, .ok []), (2, .ok [1, 2]), (2, .ok [3]), (2, .error "reset")] := by
  rfl

end Readers

end CloudTrailFilter.Process
