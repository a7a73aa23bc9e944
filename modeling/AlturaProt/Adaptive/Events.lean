import AlturaProt.Adaptive.Detector
import AlturaProt.Filter.Engine

/-!
# Attack events

What an observation leads to: activations of the filter engine, and events in
the log. Texts that come from the request are cut to a bound before they are
logged, and a cut text ends with a marker. The path shape is cut as well
(`logged_path_shape`), and a cut shape is none of the request's shapes any more
(`bounded_ne_shape`). A cut falls between two characters: the bytes at which a character
starts are exactly those that Rust takes for boundaries (`isCharBoundary_iff`).
-/

namespace AlturaProt.Adaptive

open Foundation Limiter Filter

/-! ## Bounded texts -/

def TRUNCATED_MARKER : Str := utf8 "...[truncated]"
def MAX_EVENT_PATH_BYTES : ℕ := 1024
def MAX_EVENT_PATH_SHAPE_BYTES : ℕ := 512
def MAX_EVENT_USER_AGENT_BYTES : ℕ := 512

/-- A character of a string of bytes starts at this position, or the string
ends there: the byte is no continuation byte. -/
def isCharBoundary (value : Str) (index : ℕ) : Bool :=
  if index = 0 then true
  else match value[index]? with
    | none => index == value.length
    | some byte => !(0x80 ≤ byte && byte < 0xC0)

/-- The loop of `utf8_boundary_at_or_before`. -/
def lastBoundary (value : Str) : ℕ → ℕ
  | 0 => 0
  | index + 1 => if isCharBoundary value (index + 1) then index + 1 else lastBoundary value index

def utf8BoundaryAtOrBefore (value : Str) (index : ℕ) : ℕ :=
  lastBoundary value (min index value.length)

def boundedEventString (value : Str) (maxBytes : ℕ) : Str :=
  if value.length ≤ maxBytes then value
  else
    let markerLen := TRUNCATED_MARKER.length
    if maxBytes ≤ markerLen then value.take (utf8BoundaryAtOrBefore value maxBytes)
    else value.take (utf8BoundaryAtOrBefore value (maxBytes - markerLen)) ++ TRUNCATED_MARKER

theorem lastBoundary_le (value : Str) (index : ℕ) : lastBoundary value index ≤ index := by
  induction index with
  | zero => exact le_rfl
  | succ index ih =>
    unfold lastBoundary
    split
    · exact le_rfl
    · exact ih.trans (Nat.le_succ index)

variable {value : Str} {maxBytes index : ℕ} {chars : List Char}

/-- A long text is cut and marked. -/
theorem boundedEventString_of_lt (h : maxBytes < value.length)
    (hmarker : TRUNCATED_MARKER.length < maxBytes) :
    ∃ k, k + TRUNCATED_MARKER.length ≤ maxBytes ∧
      boundedEventString value maxBytes = value.take k ++ TRUNCATED_MARKER := by
  refine ⟨utf8BoundaryAtOrBefore value (maxBytes - TRUNCATED_MARKER.length), ?_, ?_⟩
  · have hle := lastBoundary_le value
      (min (maxBytes - TRUNCATED_MARKER.length) value.length)
    unfold utf8BoundaryAtOrBefore
    omega
  · unfold boundedEventString
    rw [if_neg (not_le.mpr h)]
    exact if_neg (not_le.mpr hmarker)

theorem boundedEventString_of_le (h : value.length ≤ maxBytes) :
    boundedEventString value maxBytes = value := if_pos h

theorem length_boundedEventString_le (value : Str) (hmarker : TRUNCATED_MARKER.length < maxBytes) :
    (boundedEventString value maxBytes).length ≤ maxBytes := by
  rcases le_or_gt value.length maxBytes with h | h
  · rw [boundedEventString_of_le h]
    exact h
  · obtain ⟨k, hk, heq⟩ := boundedEventString_of_lt h hmarker
    rw [heq, List.length_append]
    have := List.length_take_le k value
    omega

/-! ### Where a text is cut -/

/-- Behind the first character, the boundaries are those of the rest. -/
theorem isCharBoundary_append {c : Char} (h : (String.utf8EncodeChar c).length ≤ index) :
    isCharBoundary (String.utf8EncodeChar c ++ encodeChars chars) index =
      isCharBoundary (encodeChars chars) (index - (String.utf8EncodeChar c).length) := by
  obtain ⟨first, rest, heq, -⟩ := utf8EncodeChar_eq_cons c
  have hpos : 0 < (String.utf8EncodeChar c).length := by simp [heq]
  generalize String.utf8EncodeChar c = front at h hpos ⊢
  unfold isCharBoundary
  rw [if_neg (by omega), List.getElem?_append_right h]
  by_cases hstart : index - front.length = 0
  · rw [if_pos hstart, hstart]
    have hhead := head_encodeChars chars
    cases hbyte : (encodeChars chars)[0]? with
    | none =>
      have hnil : encodeChars chars = [] := by simpa using hbyte
      have hindex : index = front.length := by omega
      simp [hnil, hindex]
    | some byte =>
      have hfirst : isContinuation byte = false := hhead byte hbyte
      show (!isContinuation byte) = true
      rw [hfirst]
      rfl
  · rw [if_neg hstart]
    cases (encodeChars chars)[index - front.length]? with
    | none =>
      rw [Bool.eq_iff_iff]
      simp only [List.length_append, beq_iff_eq]
      omega
    | some byte => rfl

/-- **Boundaries.** A position of a UTF-8 text is a boundary iff characters end there. -/
theorem isCharBoundary_iff (h : index ≤ (encodeChars chars).length) :
    isCharBoundary (encodeChars chars) index = true ↔
      ∃ kept, kept <+: chars ∧ (encodeChars kept).length = index := by
  induction chars generalizing index with
  | nil =>
    obtain rfl : index = 0 := by simpa [encodeChars] using h
    exact ⟨fun _ => ⟨[], List.prefix_rfl, rfl⟩, fun _ => rfl⟩
  | cons c chars ih =>
    rw [encodeChars_cons, List.length_append] at h
    rw [encodeChars_cons]
    rcases Nat.eq_zero_or_pos index with rfl | hpos
    · exact ⟨fun _ => ⟨[], List.nil_prefix, rfl⟩, fun _ => rfl⟩
    rcases Nat.lt_or_ge index (String.utf8EncodeChar c).length with hlt | hge
    · -- within the first character there is no boundary
      obtain ⟨first, rest, heq, -, hrest⟩ := utf8EncodeChar_eq_cons c
      constructor
      · intro hboundary
        obtain ⟨i, rfl⟩ : ∃ i, index = i + 1 := ⟨index - 1, by omega⟩
        have hi : i < rest.length := by
          rw [heq, List.length_cons] at hlt
          omega
        have hbyte : (String.utf8EncodeChar c ++ encodeChars chars)[i + 1]? = some rest[i] := by
          rw [List.getElem?_append_left hlt]
          simp [heq, hi]
        have hcontinues : isContinuation rest[i] = true := hrest _ (List.getElem_mem hi)
        rw [isCharBoundary, if_neg (by omega), hbyte] at hboundary
        have hstarts : (!isContinuation rest[i]) = true := hboundary
        rw [hcontinues] at hstarts
        cases hstarts
      · rintro ⟨kept, hkept, hlength⟩
        cases kept with
        | nil =>
          have hzero : 0 = index := hlength
          omega
        | cons c' kept =>
          obtain ⟨rfl, -⟩ := List.cons_prefix_cons.mp hkept
          rw [encodeChars_cons, List.length_append] at hlength
          omega
    · rw [isCharBoundary_append hge, ih (by omega)]
      constructor
      · rintro ⟨kept, hkept, hlength⟩
        refine ⟨c :: kept, List.cons_prefix_cons.mpr ⟨rfl, hkept⟩, ?_⟩
        rw [encodeChars_cons, List.length_append]
        omega
      · rintro ⟨kept, hkept, hlength⟩
        cases kept with
        | nil =>
          have hzero : 0 = index := hlength
          omega
        | cons c' kept =>
          obtain ⟨rfl, htail⟩ := List.cons_prefix_cons.mp hkept
          rw [encodeChars_cons, List.length_append] at hlength
          exact ⟨kept, htail, by omega⟩

/-- The search stops at a boundary. -/
theorem isCharBoundary_lastBoundary (value : Str) (index : ℕ) :
    isCharBoundary value (lastBoundary value index) = true := by
  induction index with
  | zero => rfl
  | succ index ih =>
    unfold lastBoundary
    split
    · assumption
    · exact ih

/-- The search passes over no boundary. -/
theorem le_lastBoundary {k : ℕ} (hk : k ≤ index) (hboundary : isCharBoundary value k = true) :
    k ≤ lastBoundary value index := by
  induction index with
  | zero => exact hk
  | succ index ih =>
    unfold lastBoundary
    split
    · exact hk
    · rename_i hinside
      have hne : k ≠ index + 1 := fun heq => hinside (heq ▸ hboundary)
      exact ih (by omega)

theorem length_encodeChars_mono {kept : List Char} (h : kept <+: chars) :
    (encodeChars kept).length ≤ (encodeChars chars).length := by
  obtain ⟨rest, rfl⟩ := h
  rw [encodeChars, encodeChars, List.flatMap_append, List.length_append]
  exact Nat.le_add_right _ _

/-- **The cut.** Up to a position, a UTF-8 text is cut to as many whole characters as fit. -/
theorem take_utf8BoundaryAtOrBefore (chars : List Char) (room : ℕ) :
    ∃ kept, kept <+: chars ∧ (encodeChars kept).length ≤ room ∧
      (∀ other, other <+: chars → (encodeChars other).length ≤ room →
        (encodeChars other).length ≤ (encodeChars kept).length) ∧
      (encodeChars chars).take (utf8BoundaryAtOrBefore (encodeChars chars) room) =
        encodeChars kept := by
  have hle := lastBoundary_le (encodeChars chars) (min room (encodeChars chars).length)
  have hlength := hle.trans (min_le_right _ _)
  obtain ⟨kept, hkept, heq⟩ := (isCharBoundary_iff hlength).mp (isCharBoundary_lastBoundary _ _)
  refine ⟨kept, hkept, heq ▸ hle.trans (min_le_left _ _), ?_, ?_⟩
  · intro other hother hroom
    have hwithin := length_encodeChars_mono hother
    rw [heq]
    exact le_lastBoundary (le_min hroom hwithin)
      ((isCharBoundary_iff hwithin).mpr ⟨other, hother, rfl⟩)
  · obtain ⟨rest, rfl⟩ := hkept
    rw [utf8BoundaryAtOrBefore, ← heq, encodeChars, encodeChars, List.flatMap_append]
    exact List.take_left

/-- **Event truncation.** For every UTF-8 text and bound: every slice is taken at a boundary, the
result is within the bound, a text that fits is left as it is, and one that does not is cut to the
longest run of whole characters that leaves room for the marker, or that fits alone where the
bound is no longer than the marker. -/
theorem event_truncation (chars : List Char) (maxBytes : ℕ) :
    (∀ index, isCharBoundary (encodeChars chars)
      (utf8BoundaryAtOrBefore (encodeChars chars) index) = true) ∧
    (boundedEventString (encodeChars chars) maxBytes).length ≤ maxBytes ∧
    ((encodeChars chars).length ≤ maxBytes →
      boundedEventString (encodeChars chars) maxBytes = encodeChars chars) ∧
    (maxBytes < (encodeChars chars).length → maxBytes ≤ TRUNCATED_MARKER.length →
      ∃ kept, kept <+: chars ∧ (encodeChars kept).length ≤ maxBytes ∧
        (∀ other, other <+: chars → (encodeChars other).length ≤ maxBytes →
          (encodeChars other).length ≤ (encodeChars kept).length) ∧
        boundedEventString (encodeChars chars) maxBytes = encodeChars kept) ∧
    (maxBytes < (encodeChars chars).length → TRUNCATED_MARKER.length < maxBytes →
      ∃ kept, kept <+: chars ∧
        (encodeChars kept).length ≤ maxBytes - TRUNCATED_MARKER.length ∧
        (∀ other, other <+: chars →
          (encodeChars other).length ≤ maxBytes - TRUNCATED_MARKER.length →
          (encodeChars other).length ≤ (encodeChars kept).length) ∧
        boundedEventString (encodeChars chars) maxBytes =
          encodeChars kept ++ TRUNCATED_MARKER) := by
  have hshort : maxBytes < (encodeChars chars).length → maxBytes ≤ TRUNCATED_MARKER.length →
      boundedEventString (encodeChars chars) maxBytes =
        (encodeChars chars).take (utf8BoundaryAtOrBefore (encodeChars chars) maxBytes) := by
    intro hlong hmarker
    rw [boundedEventString, if_neg (not_le.mpr hlong)]
    exact if_pos hmarker
  have hmarked : maxBytes < (encodeChars chars).length → TRUNCATED_MARKER.length < maxBytes →
      boundedEventString (encodeChars chars) maxBytes =
        (encodeChars chars).take (utf8BoundaryAtOrBefore (encodeChars chars)
          (maxBytes - TRUNCATED_MARKER.length)) ++ TRUNCATED_MARKER := by
    intro hlong hmarker
    rw [boundedEventString, if_neg (not_le.mpr hlong)]
    exact if_neg (not_le.mpr hmarker)
  refine ⟨fun index => isCharBoundary_lastBoundary _ _, ?_, boundedEventString_of_le, ?_, ?_⟩
  · rcases Nat.lt_or_ge TRUNCATED_MARKER.length maxBytes with hmarker | hmarker
    · exact length_boundedEventString_le _ hmarker
    · rcases Nat.lt_or_ge maxBytes (encodeChars chars).length with hlong | hfits
      · obtain ⟨kept, -, hroom, -, heq⟩ := take_utf8BoundaryAtOrBefore chars maxBytes
        rw [hshort hlong hmarker, heq]
        exact hroom
      · rw [boundedEventString_of_le hfits]
        exact hfits
  · intro hlong hmarker
    rw [hshort hlong hmarker]
    exact take_utf8BoundaryAtOrBefore chars maxBytes
  · intro hlong hmarker
    obtain ⟨kept, hkept, hroom, hlongest, heq⟩ :=
      take_utf8BoundaryAtOrBefore chars (maxBytes - TRUNCATED_MARKER.length)
    exact ⟨kept, hkept, hroom, hlongest, by rw [hmarked hlong hmarker, heq]⟩

/-! ## Cut shapes -/

/-- Two texts differ in one place only, behind a slash, and the second has no dot
there: the first one, cut anywhere and marked, is not the second. -/
theorem cut_ne_of_parts {front back x y : Str} (hfront : front.getLast? = some 0x2F)
    (hx : x ≠ []) (hy : y ≠ []) (hxy : x.head? ≠ y.head?) (hdot : y.head? ≠ some 0x2E) (k : ℕ) :
    (front ++ x ++ back).take k ++ TRUNCATED_MARKER ≠ front ++ y ++ back := by
  intro h
  rw [List.append_assoc, List.append_assoc] at h
  rcases Nat.lt_or_ge front.length k with hk | hk
  · -- the place itself is left
    have hleft : ((front ++ (x ++ back)).take k ++ TRUNCATED_MARKER)[front.length]? = x.head? := by
      have hlen : front.length < ((front ++ (x ++ back)).take k).length := by
        have := List.length_pos_iff.mpr hx
        simp only [List.length_take, List.length_append]
        omega
      rw [List.getElem?_append_left hlen, List.getElem?_take_of_lt hk,
        List.getElem?_append_right le_rfl, Nat.sub_self, ← List.head?_eq_getElem?,
        List.head?_append_of_ne_nil _ hx]
    have hright : (front ++ (y ++ back))[front.length]? = y.head? := by
      rw [List.getElem?_append_right le_rfl, Nat.sub_self, ← List.head?_eq_getElem?,
        List.head?_append_of_ne_nil _ hy]
    exact hxy (hleft.symm.trans ((congrArg (·[front.length]?) h).trans hright))
  · -- the marker would begin within the common front
    rw [List.take_append_of_le_length hk] at h
    nth_rewrite 2 [← List.take_append_drop k front] at h
    rw [List.append_assoc] at h
    have hmarker := List.append_cancel_left h
    rcases Nat.lt_or_ge k front.length with hlt | hge
    · have hslash : (0x2F : UInt8) ∈ front.drop k := by
        apply List.mem_of_getLast?
        rw [List.getLast?_drop, if_neg (not_le.mpr hlt), hfront]
      have hmem : (0x2F : UInt8) ∈ TRUNCATED_MARKER := by
        rw [hmarker]
        exact List.mem_append_left _ hslash
      exact absurd hmem (by decide)
    · rw [List.drop_of_length_le hge, List.nil_append] at hmarker
      have hhead : TRUNCATED_MARKER.head? = y.head? := by
        rw [hmarker, List.head?_append_of_ne_nil _ hy]
      exact hdot (hhead.symm.trans rfl)

/-- A path shape the proxy observes for a request: its own or its short-token
parent. -/
def ObservedShape (path shape : Str) : Prop :=
  shape = requestPathShape path ∨ (shortTokenParentShape path).map Prod.fst = some shape

theorem ObservedShape.ne_nil {path shape : Str} (h : ObservedShape path shape) : shape ≠ [] := by
  have hroot : ∀ out, orRoot out ≠ [] := by
    intro out
    unfold orRoot
    split
    · decide
    · rename_i hne
      intro hnil
      exact hne (List.isEmpty_iff.mpr hnil)
  rcases h with rfl | h
  · exact hroot _
  · obtain ⟨pair, hpair, rfl⟩ := Option.map_eq_some_iff.mp h
    obtain ⟨token, -, rfl⟩ := Option.map_eq_some_iff.mp hpair
    exact hroot _

theorem boundedEventString_ne_nil (h : value ≠ []) (hmarker : TRUNCATED_MARKER.length < maxBytes) :
    boundedEventString value maxBytes ≠ [] := by
  rcases le_or_gt value.length maxBytes with hle | hlt
  · rw [boundedEventString_of_le hle]
    exact h
  · obtain ⟨k, -, heq⟩ := boundedEventString_of_lt hlt hmarker
    rw [heq]
    exact List.append_ne_nil_of_right_ne_nil _ (by decide)

theorem head_lowConfidence {token : Str} (h : isLowConfidenceShortTokenSegment token = true) :
    token ≠ [] ∧ token.head? ≠ some 0x3A ∧ token.head? ≠ some 0x2E := by
  simp only [isLowConfidenceShortTokenSegment, Bool.and_eq_true, decide_eq_true_eq,
    List.all_eq_true] at h
  obtain ⟨⟨⟨⟨hmin, -⟩, hlower⟩, -⟩, -⟩ := h
  refine ⟨List.length_pos_iff.mp (by omega), fun hhead => ?_, fun hhead => ?_⟩
  · exact absurd (hlower _ (List.mem_of_mem_head? hhead)) (by decide)
  · exact absurd (hlower _ (List.mem_of_mem_head? hhead)) (by decide)

/-- **A cut shape is lost.** If a shape of a request is cut, the result is no
shape of the request. -/
theorem bounded_ne_shape {path shape other : Str} (hshape : ObservedShape path shape)
    (hother : ObservedShape path other) (hlong : maxBytes < shape.length)
    (hmarker : TRUNCATED_MARKER.length < maxBytes) : boundedEventString shape maxBytes ≠ other := by
  intro heq
  have hself : shape ≠ other := by
    rintro rfl
    have hle := length_boundedEventString_le shape hmarker
    rw [heq] at hle
    omega
  obtain ⟨k, -, hcut⟩ := boundedEventString_of_lt hlong hmarker
  rw [hcut] at heq
  rcases hshape with hshape | hshape <;> rcases hother with hother | hother
  · exact hself (hshape.trans hother.symm)
  · -- the request's own shape is cut and would be its parent
    obtain ⟨⟨parent, token⟩, hparent, rfl⟩ := Option.map_eq_some_iff.mp hother
    obtain ⟨hlow, front, back, hfront, hown, hother⟩ := parentOf_shortTokenParentShape hparent
    obtain ⟨hne, hcolon, -⟩ := head_lowConfidence hlow
    rw [hshape, hown] at heq
    have hne' : utf8 ":short-token" ≠ [] := by decide
    exact cut_ne_of_parts hfront hne hne' hcolon (by decide) k (heq.trans hother)
  · -- the parent is cut and would be the request's own shape
    obtain ⟨⟨parent, token⟩, hparent, rfl⟩ := Option.map_eq_some_iff.mp hshape
    obtain ⟨hlow, front, back, hfront, hown, hparentEq⟩ := parentOf_shortTokenParentShape hparent
    obtain ⟨hne, hcolon, hdot⟩ := head_lowConfidence hlow
    rw [hother, hown] at heq
    have hcut' : (parent.take k ++ TRUNCATED_MARKER) = front ++ token ++ back := heq
    rw [show parent = _ from hparentEq] at hcut'
    have hne' : utf8 ":short-token" ≠ [] := by decide
    exact cut_ne_of_parts hfront hne' hne hcolon.symm hdot k hcut'
  · exact hself (Option.some.inj (hshape.symm.trans hother))

/-! ## Observing a request -/

structure AttackEvent where
  path : Str
  pathShape : Str
  userAgent : Str
  signature : Str
  reason : String
  observedCount : ℕ
deriving DecidableEq

def userAgent (ctx : RequestContext) : Str :=
  (combinedHeaderValue ctx.headers (utf8 "user-agent")).getD []

/-- What `log_event` logs. -/
def logEvent (ctx : RequestContext) (reason : String) (observedCount : ℕ) (pathShape : Str) :
    AttackEvent where
  path := boundedEventString ctx.path MAX_EVENT_PATH_BYTES
  pathShape := boundedEventString pathShape MAX_EVENT_PATH_SHAPE_BYTES
  userAgent := boundedEventString (userAgent ctx) MAX_EVENT_USER_AGENT_BYTES
  signature := ctx.signature
  reason := reason
  observedCount := observedCount

/-- What an observation does outside of the windows: the evidence it activates
and the events it logs. -/
structure Effects where
  activated : List Evidence
  logged : List AttackEvent
deriving DecidableEq

/-- The signatures and shapes that two observations activate. -/
def activatedEvidence (ctx : RequestContext) (observation : Observation)
    (shapeObservation : Option ShapeObservation) : List Evidence :=
  let legacy := legacyRequestSignature ctx.method ctx.path ctx.query ctx.headers
  (if observation.activate then
    Evidence.signature ctx.signature ::
      (if legacy ≠ ctx.signature then [Evidence.signature legacy] else [])
  else []) ++
  match shapeObservation with
  | some shaped => if shaped.activate then [Evidence.pathShape shaped.shape] else []
  | none => []

/-- The events that two observations log. -/
def loggedEvents (ctx : RequestContext) (reason : String) (pathShape : Str)
    (observation : Observation) (shapeObservation : Option ShapeObservation) :
    List AttackEvent :=
  (match shapeObservation with
    | some shaped =>
      if shaped.emit && !observation.emit then
        [logEvent ctx shaped.reason shaped.count shaped.shape]
      else []
    | none => []) ++
  if observation.emit then [logEvent ctx reason observation.count pathShape] else []

namespace AdaptiveDetector

variable (d : AdaptiveDetector)

/-- `observe_with_path_shape`; the clock is read once for each of the two
windows. -/
def observeWithPathShape (hash : Str → ℕ) (s : State) (ctx : RequestContext) (reason : String)
    (pathShape : Str) (now now' : Instant) : State × Effects :=
  if !d.enabled then (s, ⟨[], []⟩)
  else
    let observed := d.observeSignature hash s.windows ctx.signature reason now
    let shaped :=
      if shouldTrackPathShape reason then
        d.observePathShape hash s.shapeWindows pathShape (isStrongReason reason) reason now'
      else (s.shapeWindows, none)
    (⟨observed.1, shaped.1⟩,
      ⟨activatedEvidence ctx observed.2 shaped.2,
        loggedEvents ctx reason pathShape observed.2 shaped.2⟩)

def observe (hash : Str → ℕ) (s : State) (ctx : RequestContext) (reason : String)
    (now now' : Instant) : State × Effects :=
  d.observeWithPathShape hash s ctx reason (requestPathShape ctx.path) now now'

/-- An observation of a shape is about that shape. -/
theorem shape_observePathShape {hash : Str → ℕ} {windows : Windows ShapeWindow}
    {pathShape : Str} {strongEvidence : Bool} {reason : String} {now : Instant}
    {shaped : ShapeObservation}
    (h : (d.observePathShape hash windows pathShape strongEvidence reason now).2 = some shaped) :
    shaped.shape = pathShape := by
  obtain ⟨⟨result, inserted⟩, hresult, hshaped⟩ := Option.bind_eq_some_iff.mp h
  obtain ⟨window, hwindow⟩ := KeyedQueue.visit_result hresult
  have hcount : (d.countShape pathShape reason strongEvidence now window).2 = some shaped :=
    hwindow.trans hshaped
  obtain ⟨-, hsome⟩ := Option.ite_none_right_eq_some.mp hcount
  rw [← Option.some.inj hsome]

/-- **What is logged of the path shape.** -/
theorem logged_path_shape {hash : Str → ℕ} {s : State} {ctx : RequestContext} {reason : String}
    {pathShape : Str} {now now' : Instant} {event : AttackEvent}
    (h : event ∈ (d.observeWithPathShape hash s ctx reason pathShape now now').2.logged) :
    event.pathShape = boundedEventString pathShape MAX_EVENT_PATH_SHAPE_BYTES := by
  unfold observeWithPathShape at h
  split at h
  · cases h
  · rcases List.mem_append.mp h with h | h
    · -- an event of the shape's window
      split at h
      · rename_i shaped hshaped
        split at h
        · obtain rfl := List.mem_singleton.mp h
          have hshape : shaped.shape = pathShape := by
            split at hshaped
            · exact d.shape_observePathShape hshaped
            · cases hshaped
          rw [← hshape]
          rfl
        · cases h
      · cases h
    · -- an event of the signature's window
      split at h
      · obtain rfl := List.mem_singleton.mp h
        rfl
      · cases h

end AdaptiveDetector

end AlturaProt.Adaptive
