import AlturaProt.Http.RawHead

/-!
# The first request of a connection

`prevalidate_initial_http1_request` reads from the socket until it has seen the
end of the request head, and checks the head. After each read it searches only
from three bytes before the new data. What it has read is handed on in front of
the socket, as a `PreReadStream`.

`prevalidateByteByByte` is the plain way to say what it decides: read one byte
at a time and search everything each time. Both depend on nothing but the
stream (`streamVerdict`).
-/

namespace AlturaProt.Http

open Foundation

/-! ## The model -/

/-- How a read of the socket ends; a read of no bytes is the end of the stream. -/
inductive SocketRead where
  | data (bytes : Str)
  | timedOut
  | failed
deriving DecidableEq

def SocketRead.bytes : SocketRead → Str
  | .data bytes => bytes
  | .timedOut => []
  | .failed => []

/-- The bytes that reads deliver. -/
def socketBytes (reads : List SocketRead) : Str := reads.flatMap SocketRead.bytes

structure PreReadStream where
  prefixBytes : Str
  offset : ℕ
  inner : List SocketRead
deriving DecidableEq

/-- The errors without the socket that they carry along. -/
inductive InitialRequestPrecheckError where
  | rejected (reason : String)
  | requestTargetRejected (reason : String)
  | headerTooLarge
  | headerCountTooLarge
  | timeout
  | io
deriving DecidableEq

structure PrecheckLimits where
  maxHeaderBytes : ℕ
  maxHeaderLineBytes : ℕ
  maxHeaders : ℕ
  requestTargetLimits : RawRequestTargetLimits
  allowChunkedRequestBodies : Bool

abbrev PrecheckVerdict : Type := Except InitialRequestPrecheckError Unit

/-- An empty line after a line. -/
def headerEndMark : Str := [0x0D, 0x0A, 0x0D, 0x0A]

def findHeaderEndFrom (bytes : Str) (start : ℕ) : Option ℕ :=
  if bytes.length < 4 then none
  else if bytes.length - 4 < start then none
  else (position headerEndMark (bytes.drop start)).map fun idx => start + idx + 4

/-- The checks on a complete head, in the order in which they are made. -/
def checkHead (limits : PrecheckLimits) (head : Str) : PrecheckVerdict := do
  rejectIf (decide (limits.maxHeaderBytes < head.length)) .headerTooLarge
  rejectIf (rawHttp1HeaderLineExceeds head limits.maxHeaderLineBytes) .headerTooLarge
  (validateRawHttp1HeaderBlock head limits.allowChunkedRequestBodies).mapError .rejected
  (validateRawRequestTarget head limits.requestTargetLimits).mapError .requestTargetRejected
  rejectIf (rawHttp1HeaderCountExceeds head limits.maxHeaders) .headerCountTooLarge

/-- What is decided before the next read, if anything. -/
def headVerdict (limits : PrecheckLimits) (prefixBytes : Str) (headerScanStart : ℕ) :
    Option PrecheckVerdict :=
  match findHeaderEndFrom prefixBytes headerScanStart with
  | some headerEnd => some (checkHead limits (prefixBytes.take headerEnd))
  | none =>
    if limits.maxHeaderBytes ≤ prefixBytes.length then some (.error .headerTooLarge) else none

/-- The loop of `prevalidate_initial_http1_request`; `none` while it waits for
the next read. -/
def prevalidateFrom (limits : PrecheckLimits) (prefixBytes : Str) (headerScanStart : ℕ)
    (reads : List SocketRead) : Option (Except InitialRequestPrecheckError PreReadStream) :=
  match headVerdict limits prefixBytes headerScanStart with
  | some verdict => some (verdict.map fun _ => ⟨prefixBytes, 0, reads⟩)
  | none =>
    match reads with
    | [] => none
    | .timedOut :: _ => some (.error .timeout)
    | .failed :: _ => some (.error .io)
    | .data bytes :: rest =>
      if bytes.isEmpty then some (.ok ⟨prefixBytes, 0, rest⟩)
      else prevalidateFrom limits (prefixBytes ++ bytes) (prefixBytes.length - 3) rest

def prevalidateInitialHttp1Request (limits : PrecheckLimits) (reads : List SocketRead) :
    Option (Except InitialRequestPrecheckError PreReadStream) :=
  prevalidateFrom limits [] 0 reads

/-- `poll_read` with room for `capacity` bytes. -/
def PreReadStream.pollRead (s : PreReadStream) (capacity : ℕ) : PreReadStream × Str :=
  if s.offset < s.prefixBytes.length then
    let chunk := (s.prefixBytes.drop s.offset).take capacity
    ({ s with offset := s.offset + chunk.length }, chunk)
  else
    match s.inner with
    | .data bytes :: rest =>
      ({ s with inner :=
          if bytes.length ≤ capacity then rest else .data (bytes.drop capacity) :: rest },
        bytes.take capacity)
    | _ => (s, [])

/-- Reads one after the other, with the bytes they give together. -/
def PreReadStream.read (s : PreReadStream) : List ℕ → PreReadStream × Str
  | [] => (s, [])
  | capacity :: rest =>
    let polled := s.pollRead capacity
    let later := polled.1.read rest
    (later.1, polled.2 ++ later.2)

/-! ## One byte at a time -/

/-- The stream is read byte by byte and searched from its start each time. -/
def prevalidateByteByByte (limits : PrecheckLimits) (closed : Bool) (seen rest : Str) :
    Option PrecheckVerdict :=
  match headVerdict limits seen 0 with
  | some verdict => some verdict
  | none =>
    match rest with
    | [] => if closed then some (.ok ()) else none
    | b :: rest => prevalidateByteByByte limits closed (seen ++ [b]) rest

/-! ## What the verdict depends on -/

/-- The verdict on a stream that is cut in no way at all. -/
def streamVerdict (limits : PrecheckLimits) (closed : Bool) (stream : Str) :
    Option PrecheckVerdict :=
  match position headerEndMark stream with
  | some idx => some (checkHead limits (stream.take (idx + 4)))
  | none =>
    if limits.maxHeaderBytes ≤ stream.length then some (.error .headerTooLarge)
    else if closed then some (.ok ()) else none

variable {limits : PrecheckLimits} {closed : Bool}

theorem checkHead_of_lt {head : Str} (h : limits.maxHeaderBytes < head.length) :
    checkHead limits head = .error .headerTooLarge := by
  unfold checkHead
  rw [decide_eq_true h]
  rfl

variable {start : ℕ} {front : Str}

/-- The search from `start` finds the end of the head if it does not begin
before. -/
theorem findHeaderEndFrom_eq {bytes : Str} (h : ∀ i < start, ¬ OccursAt headerEndMark bytes i) :
    findHeaderEndFrom bytes start = (position headerEndMark bytes).map (· + 4) := by
  have hlength : ∀ i, OccursAt headerEndMark bytes i → i + 4 ≤ bytes.length :=
    fun i hat => hat.add_length_le (by decide)
  unfold findHeaderEndFrom
  split
  · rw [position_eq_none_iff.mpr fun i hat => by have := hlength i hat; omega]
    rfl
  split
  · have hnone : position headerEndMark bytes = none := by
      refine position_eq_none_iff.mpr fun i hat => ?_
      have := hlength i hat
      exact h i (by omega) hat
    rw [hnone]
    rfl
  · rw [← position_drop h, Option.map_map]
    rfl

/-- A decision about the first part of a stream is one about the stream. -/
theorem streamVerdict_of_headVerdict {back : Str} {verdict : PrecheckVerdict}
    (hstart : ∀ i < start, ¬ OccursAt headerEndMark front i)
    (h : headVerdict limits front start = some verdict) :
    streamVerdict limits closed (front ++ back) = some verdict := by
  unfold headVerdict at h
  rw [findHeaderEndFrom_eq hstart] at h
  unfold streamVerdict
  cases hfront : position headerEndMark front with
  | some idx =>
    obtain ⟨hat, hfirst⟩ := position_eq_some_iff.mp hfront
    have hend : idx + 4 ≤ front.length := hat.add_length_le (by decide)
    have hsame : position headerEndMark (front ++ back) = some idx := by
      refine position_eq_some_iff.mpr ⟨(occursAt_append_left_iff hend).mpr hat, ?_⟩
      intro j hj hat'
      exact hfirst j hj ((occursAt_append_left_iff (show j + 4 ≤ _ by omega)).mp hat')
    rw [hfront] at h
    rw [hsame, ← h]
    show some (checkHead limits ((front ++ back).take (idx + 4))) = _
    rw [List.take_append_of_le_length hend]
    rfl
  | none =>
    rw [hfront] at h
    dsimp only [Option.map_none] at h
    split at h
    · cases h
      have hlen : limits.maxHeaderBytes ≤ (front ++ back).length := by
        rw [List.length_append]
        omega
      cases hpos : position headerEndMark (front ++ back) with
      | none =>
        rw [if_pos hlen]
      | some idx =>
        -- the head ends in the second part, beyond the limit
        have hat := (position_eq_some_iff.mp hpos).1
        have hbeyond : front.length < idx + 4 := by
          by_contra hwithin
          exact position_eq_none_iff.mp hfront idx
            ((occursAt_append_left_iff (not_lt.mp hwithin)).mp hat)
        have hend : idx + 4 ≤ (front ++ back).length := hat.add_length_le (by decide)
        dsimp only
        rw [checkHead_of_lt]
        rw [List.length_take, min_eq_left hend]
        omega
    · cases h

/-- Nothing is decided as long as the head has not ended and may go on. -/
theorem headVerdict_eq_none (hstart : ∀ i < start, ¬ OccursAt headerEndMark front i)
    (h : headVerdict limits front start = none) :
    (∀ i, ¬ OccursAt headerEndMark front i) ∧ front.length < limits.maxHeaderBytes := by
  unfold headVerdict at h
  rw [findHeaderEndFrom_eq hstart] at h
  cases hfront : position headerEndMark front with
  | some idx =>
    rw [hfront] at h
    cases h
  | none =>
    rw [hfront] at h
    dsimp only [Option.map_none] at h
    split at h
    · cases h
    · rename_i hlong
      exact ⟨position_eq_none_iff.mp hfront, not_le.mp hlong⟩

theorem streamVerdict_of_undecided {stream : Str} (hnone : ∀ i, ¬ OccursAt headerEndMark stream i)
    (hlen : stream.length < limits.maxHeaderBytes) :
    streamVerdict limits closed stream = if closed then some (.ok ()) else none := by
  unfold streamVerdict
  rw [position_eq_none_iff.mpr hnone]
  rw [if_neg (not_le.mpr hlen)]

theorem prevalidateByteByByte_eq (seen rest : Str) :
    prevalidateByteByByte limits closed seen rest = streamVerdict limits closed (seen ++ rest) := by
  have hzero : ∀ (text : Str), ∀ i < 0, ¬ OccursAt headerEndMark text i :=
    fun _ i hi => absurd hi (Nat.not_lt_zero i)
  induction rest generalizing seen with
  | nil =>
    unfold prevalidateByteByByte
    cases hverdict : headVerdict limits seen 0 with
    | some verdict => exact (streamVerdict_of_headVerdict (hzero seen) hverdict).symm
    | none =>
      obtain ⟨hnone, hlen⟩ := headVerdict_eq_none (hzero seen) hverdict
      rw [List.append_nil, streamVerdict_of_undecided hnone hlen]
  | cons b rest ih =>
    unfold prevalidateByteByByte
    cases hverdict : headVerdict limits seen 0 with
    | some verdict => exact (streamVerdict_of_headVerdict (hzero seen) hverdict).symm
    | none =>
      show prevalidateByteByByte limits closed (seen ++ [b]) rest = _
      rw [ih, List.append_assoc, List.singleton_append]

/-! ## The loop over the reads -/

/-- The reads of a stream that is cut into pieces, with its end if it has one. -/
def socketReads (pieces : List Str) (closed : Bool) : List SocketRead :=
  pieces.map .data ++ if closed then [.data []] else []

theorem socketBytes_socketReads (pieces : List Str) (closed : Bool) :
    socketBytes (socketReads pieces closed) = pieces.flatten := by
  have hend : socketBytes (if closed then [.data []] else []) = [] := by
    cases closed <;> rfl
  have hdata : socketBytes (pieces.map .data) = pieces.flatten := by
    induction pieces with
    | nil => rfl
    | cons piece rest ih =>
      show piece ++ socketBytes (rest.map .data) = _
      rw [ih, List.flatten_cons]
  rw [socketReads, socketBytes, List.flatMap_append]
  show socketBytes _ ++ socketBytes _ = _
  rw [hdata, hend, List.append_nil]

theorem length_socketReads (pieces : List Str) :
    (socketReads pieces closed).length = pieces.length + if closed then 1 else 0 := by
  cases closed <;> simp [socketReads]

theorem data_of_mem_socketReads {pieces : List Str} {read : SocketRead}
    (h : read ∈ socketReads pieces closed) : ∃ bytes, read = .data bytes := by
  rcases List.mem_append.mp h with h | h
  · obtain ⟨piece, -, rfl⟩ := List.mem_map.mp h
    exact ⟨piece, rfl⟩
  · cases closed with
    | true => exact ⟨[], List.mem_singleton.mp h⟩
    | false => cases h

/-- The three bytes before a piece are enough: what stands before them has been
searched. -/
theorem notOccursAt_of_searched {piece : Str} (h : ∀ i, ¬ OccursAt headerEndMark front i) :
    ∀ i < front.length - 3, ¬ OccursAt headerEndMark (front ++ piece) i := by
  intro i hi hat
  have hwithin : i + headerEndMark.length ≤ front.length := by
    show i + 4 ≤ front.length
    omega
  exact h i ((occursAt_append_left_iff hwithin).mp hat)

/-- The verdict without the stream that is handed on. -/
def precheckVerdict (outcome : Option (Except InitialRequestPrecheckError PreReadStream)) :
    Option PrecheckVerdict :=
  outcome.map fun result => result.map fun _ => ()

theorem precheckVerdict_decided (verdict : PrecheckVerdict) (s : PreReadStream) :
    precheckVerdict (some (verdict.map fun _ => s)) = some verdict := by
  cases verdict <;> rfl

theorem prevalidateFrom_decided {verdict : PrecheckVerdict}
    (h : headVerdict limits front start = some verdict) (reads : List SocketRead) :
    prevalidateFrom limits front start reads = some (verdict.map fun _ => ⟨front, 0, reads⟩) := by
  unfold prevalidateFrom
  rw [h]

theorem prevalidateFrom_verdict {pieces : List Str} (hpieces : ∀ piece ∈ pieces, piece ≠ [])
    (hstart : ∀ i < start, ¬ OccursAt headerEndMark front i) :
    precheckVerdict (prevalidateFrom limits front start (socketReads pieces closed)) =
      streamVerdict limits closed (front ++ pieces.flatten) := by
  induction pieces generalizing front start with
  | nil =>
    cases hverdict : headVerdict limits front start with
    | some verdict =>
      rw [prevalidateFrom_decided hverdict, precheckVerdict_decided,
        streamVerdict_of_headVerdict hstart hverdict]
    | none =>
      obtain ⟨hnone, hlen⟩ := headVerdict_eq_none hstart hverdict
      rw [List.flatten_nil, List.append_nil, streamVerdict_of_undecided hnone hlen]
      unfold prevalidateFrom
      rw [hverdict]
      cases closed <;> rfl
  | cons piece rest ih =>
    cases hverdict : headVerdict limits front start with
    | some verdict =>
      rw [prevalidateFrom_decided hverdict, precheckVerdict_decided,
        streamVerdict_of_headVerdict hstart hverdict]
    | none =>
      have hpiece : piece.isEmpty = false := by
        simpa using hpieces piece List.mem_cons_self
      obtain ⟨hnone, -⟩ := headVerdict_eq_none hstart hverdict
      unfold prevalidateFrom
      rw [hverdict]
      show precheckVerdict (if piece.isEmpty then _ else prevalidateFrom limits
        (front ++ piece) (front.length - 3) (socketReads rest closed)) = _
      rw [hpiece, if_neg Bool.false_ne_true,
        ih (fun p hp => hpieces p (List.mem_cons_of_mem _ hp)) (notOccursAt_of_searched hnone),
        List.append_assoc, List.flatten_cons]

/-! ## What is handed on -/

/-- The bytes that are still to come. -/
def PreReadStream.remaining (s : PreReadStream) : Str :=
  s.prefixBytes.drop s.offset ++ socketBytes s.inner

/-- An accepted stream: what was read is in front of what was not. -/
theorem prevalidateFrom_ok {reads : List SocketRead} {s : PreReadStream}
    (h : prevalidateFrom limits front start reads = some (.ok s)) :
    ∃ consumed, reads = consumed ++ s.inner ∧ s.prefixBytes = front ++ socketBytes consumed ∧
      s.offset = 0 := by
  have hdecided : ∀ {front : Str} {start : ℕ} {reads : List SocketRead} {verdict},
      headVerdict limits front start = some verdict →
      prevalidateFrom limits front start reads = some (.ok s) →
      ∃ consumed, reads = consumed ++ s.inner ∧ s.prefixBytes = front ++ socketBytes consumed ∧
        s.offset = 0 := by
    intro front start reads verdict hverdict h
    rw [prevalidateFrom_decided hverdict] at h
    obtain ⟨-, -, rfl⟩ := map_eq_ok_iff.mp (Option.some.inj h)
    exact ⟨[], rfl, (List.append_nil front).symm, rfl⟩
  induction reads generalizing front start with
  | nil =>
    cases hverdict : headVerdict limits front start with
    | some verdict => exact hdecided hverdict h
    | none =>
      unfold prevalidateFrom at h
      rw [hverdict] at h
      cases h
  | cons read rest ih =>
    cases hverdict : headVerdict limits front start with
    | some verdict => exact hdecided hverdict h
    | none =>
      unfold prevalidateFrom at h
      rw [hverdict] at h
      cases read with
      | timedOut => cases h
      | failed => cases h
      | data bytes =>
        dsimp only at h
        split at h
        · -- the end of the stream is a read that is gone, but it had no bytes
          rename_i hempty
          cases h
          obtain rfl := List.isEmpty_iff.mp hempty
          exact ⟨[.data []], rfl, (List.append_nil front).symm, rfl⟩
        · obtain ⟨consumed, hrest, hfirst, hoffset⟩ := ih h
          refine ⟨.data bytes :: consumed, by rw [hrest, List.cons_append], ?_, hoffset⟩
          rw [hfirst, List.append_assoc]
          rfl

namespace PreReadStream

/-- A read takes its bytes from the front of what is still to come. -/
theorem pollRead_remaining (s : PreReadStream) (capacity : ℕ) :
    (s.pollRead capacity).2 ++ (s.pollRead capacity).1.remaining = s.remaining := by
  unfold pollRead
  split
  · show (s.prefixBytes.drop s.offset).take capacity ++ (s.prefixBytes.drop (s.offset +
      ((s.prefixBytes.drop s.offset).take capacity).length) ++ socketBytes s.inner) = _
    rw [List.length_take, ← List.append_assoc, ← List.drop_drop, List.take_eq_take_min,
      min_comm, List.take_append_drop]
    rfl
  · rename_i hoffset
    split
    · rename_i bytes rest hinner
      have hfirst : s.prefixBytes.drop s.offset = [] := List.drop_eq_nil_of_le (not_lt.mp hoffset)
      have hrest : socketBytes (if bytes.length ≤ capacity then rest
          else .data (bytes.drop capacity) :: rest) = bytes.drop capacity ++ socketBytes rest := by
        split
        · rename_i hall
          rw [List.drop_eq_nil_of_le hall, List.nil_append]
        · rfl
      show bytes.take capacity ++ (s.prefixBytes.drop s.offset ++ socketBytes _) =
        s.prefixBytes.drop s.offset ++ socketBytes s.inner
      rw [hrest, hfirst, hinner, List.nil_append, List.nil_append, ← List.append_assoc,
        List.take_append_drop]
      rfl
    · rfl

theorem read_remaining (s : PreReadStream) (capacities : List ℕ) :
    (s.read capacities).2 ++ (s.read capacities).1.remaining = s.remaining := by
  induction capacities generalizing s with
  | nil => rfl
  | cons capacity rest ih =>
    show ((s.pollRead capacity).2 ++ ((s.pollRead capacity).1.read rest).2) ++
      ((s.pollRead capacity).1.read rest).1.remaining = _
    rw [List.append_assoc, ih, pollRead_remaining]

/-- The socket neither fails nor times out. -/
def Undisturbed (s : PreReadStream) : Prop := ∀ read ∈ s.inner, ∃ bytes, read = .data bytes

/-- What a reader has before it: bytes, and reads of the socket. -/
def work (s : PreReadStream) : ℕ := s.remaining.length + s.inner.length

/-- A read with room gets on with the work. -/
theorem pollRead_work {s : PreReadStream} (h : s.Undisturbed) {capacity : ℕ}
    (hroom : 0 < capacity) :
    (s.pollRead capacity).1.Undisturbed ∧
      ((s.pollRead capacity).1.work < s.work ∨ s.remaining = []) := by
  have hlength := congrArg List.length (s.pollRead_remaining capacity)
  rw [List.length_append] at hlength
  unfold pollRead at hlength ⊢
  unfold work
  split
  · rename_i hoffset
    rw [if_pos hoffset] at hlength
    refine ⟨h, Or.inl ?_⟩
    have hchunk : 0 < ((s.prefixBytes.drop s.offset).take capacity).length := by
      rw [List.length_take, List.length_drop]
      omega
    dsimp only at hlength ⊢
    omega
  · rename_i hoffset
    rw [if_neg hoffset] at hlength
    cases hinner : s.inner with
    | nil =>
      refine ⟨h, Or.inr ?_⟩
      rw [remaining, hinner, List.drop_eq_nil_of_le (not_lt.mp hoffset)]
      rfl
    | cons read rest =>
      obtain ⟨bytes, rfl⟩ := h read (hinner ▸ List.mem_cons_self)
      have hrest : ∀ read ∈ rest, ∃ bytes, read = .data bytes :=
        fun read hread => h read (hinner ▸ List.mem_cons_of_mem _ hread)
      rw [hinner] at hlength
      dsimp only at hlength ⊢
      by_cases hall : bytes.length ≤ capacity
      · rw [if_pos hall] at hlength ⊢
        refine ⟨hrest, Or.inl ?_⟩
        rw [List.length_cons]
        omega
      · rw [if_neg hall] at hlength ⊢
        refine ⟨?_, Or.inl ?_⟩
        · intro read hread
          rcases List.mem_cons.mp hread with rfl | hread
          · exact ⟨_, rfl⟩
          · exact hrest read hread
        · rw [List.length_take] at hlength
          simp only [List.length_cons]
          omega

/-- Enough reads with room get everything. -/
theorem read_all {s : PreReadStream} (h : s.Undisturbed) {capacities : List ℕ}
    (hroom : ∀ capacity ∈ capacities, 0 < capacity) (henough : s.work ≤ capacities.length) :
    (s.read capacities).2 = s.remaining := by
  induction capacities generalizing s with
  | nil =>
    have hnone : s.remaining.length = 0 := by
      rw [List.length_nil, work] at henough
      omega
    exact (List.length_eq_zero_iff.mp hnone).symm
  | cons capacity rest ih =>
    obtain ⟨hlater, hwork⟩ := pollRead_work h (hroom capacity List.mem_cons_self)
    have hsplit := s.pollRead_remaining capacity
    show (s.pollRead capacity).2 ++ ((s.pollRead capacity).1.read rest).2 = s.remaining
    rcases hwork with hless | hdone
    · rw [ih hlater (fun c hc => hroom c (List.mem_cons_of_mem _ hc)), hsplit]
      rw [List.length_cons] at henough
      omega
    · -- nothing was left, so nothing is read
      rw [hdone] at hsplit ⊢
      obtain ⟨hpolled, hnone⟩ := List.append_eq_nil_iff.mp hsplit
      have hread := (s.pollRead capacity).1.read_remaining rest
      rw [hnone] at hread
      rw [hpolled, (List.append_eq_nil_iff.mp hread).1]
      rfl

end PreReadStream

/-! ## Packetization -/

/-- **The precheck does not depend on packetization.** However a stream is cut into reads,
the verdict is that of reading it byte by byte; and a reader of the accepted stream
gets the bytes of the original one, in order and once. -/
theorem precheck_independent_of_packetization (limits : PrecheckLimits) (stream : Str)
    (closed : Bool) (pieces : List Str) (hcut : pieces.flatten = stream)
    (hsizes : ∀ piece ∈ pieces, 1 ≤ piece.length ∧ piece.length ≤ 1024) :
    precheckVerdict (prevalidateInitialHttp1Request limits (socketReads pieces closed)) =
      prevalidateByteByByte limits closed [] stream ∧
    ∀ s, prevalidateInitialHttp1Request limits (socketReads pieces closed) = some (.ok s) →
      ∀ capacities : List ℕ,
        (s.read capacities).2 ++ (s.read capacities).1.remaining = stream ∧
        ((∀ capacity ∈ capacities, 0 < capacity) →
          stream.length + pieces.length + 1 ≤ capacities.length →
          (s.read capacities).2 = stream) := by
  constructor
  · have hpieces : ∀ piece ∈ pieces, piece ≠ [] :=
      fun piece hpiece => List.length_pos_iff.mp (hsizes piece hpiece).1
    rw [prevalidateByteByByte_eq, prevalidateInitialHttp1Request,
      prevalidateFrom_verdict hpieces fun i hi => absurd hi (Nat.not_lt_zero i), hcut]
  · intro s hs capacities
    obtain ⟨consumed, hreads, hfirst, hoffset⟩ := prevalidateFrom_ok hs
    have hremaining : s.remaining = stream := by
      rw [PreReadStream.remaining, hfirst, hoffset, List.drop_zero, List.nil_append, ← hcut,
        ← socketBytes_socketReads pieces closed, hreads]
      exact List.flatMap_append.symm
    have hread := s.read_remaining capacities
    rw [hremaining] at hread
    refine ⟨hread, fun hroom henough => ?_⟩
    have hundisturbed : s.Undisturbed := by
      intro read hmem
      exact data_of_mem_socketReads (hreads ▸ List.mem_append_right consumed hmem)
    have hinner : s.inner.length ≤ pieces.length + 1 := by
      have hlength := congrArg List.length hreads
      rw [length_socketReads, List.length_append] at hlength
      have : (if closed then 1 else 0) ≤ 1 := by split <;> omega
      omega
    rw [PreReadStream.read_all hundisturbed hroom, hremaining]
    rw [PreReadStream.work, hremaining]
    omega

/-- Limits that no small request reaches. -/
def roomyLimits : PrecheckLimits where
  maxHeaderBytes := 8192
  maxHeaderLineBytes := 8192
  maxHeaders := 64
  requestTargetLimits := ⟨4096, 4096, 64, 64⟩
  allowChunkedRequestBodies := false

/-- The end of the head is spread over three reads, the last of which goes on. -/
theorem split_mark_independent_of_packetization :
    precheckVerdict (prevalidateInitialHttp1Request roomyLimits
      (socketReads [utf8 "GET / HTTP/1.1\r", utf8 "\n\r", utf8 "\nGET"] true)) =
        some (.ok ()) ∧
    prevalidateByteByByte roomyLimits true [] (utf8 "GET / HTTP/1.1\r\n\r\nGET") =
      some (.ok ()) := by
  obtain ⟨hcut, hsizes, hverdict⟩ :
      [utf8 "GET / HTTP/1.1\r", utf8 "\n\r", utf8 "\nGET"].flatten =
        utf8 "GET / HTTP/1.1\r\n\r\nGET" ∧
      (∀ piece ∈ [utf8 "GET / HTTP/1.1\r", utf8 "\n\r", utf8 "\nGET"],
        1 ≤ piece.length ∧ piece.length ≤ 1024) ∧
      precheckVerdict (prevalidateInitialHttp1Request roomyLimits
        (socketReads [utf8 "GET / HTTP/1.1\r", utf8 "\n\r", utf8 "\nGET"] true)) =
          some (.ok ()) := by decide +kernel
  have hsame := (precheck_independent_of_packetization roomyLimits _ true _ hcut hsizes).1
  exact ⟨hverdict, hsame ▸ hverdict⟩

end AlturaProt.Http
