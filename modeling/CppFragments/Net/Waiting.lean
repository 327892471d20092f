import CppFragments.Net.ReceiveRun

/-! # Complete frames left waiting

The loop goes back to blocking in `SSL_read` by three ways: the entry test, the
break of the parse loop and the would-block case. The first two take five bytes
for the size of the smallest frame, the third does not parse at all.
-/

namespace CppFragments

open ByteBuffer WebSocketPacket LoopState Transition
open Framing (stream)

/-! ## Frames within bytes -/

/-- Read frame by frame, the bytes come to a complete frame that begins where `wanted`
holds. -/
inductive Reaches (wanted : List UInt8 → Prop) : List UInt8 → Prop
  | here {bytes : List UInt8} (hcomplete : Frame.Complete bytes) (hwanted : wanted bytes) :
      Reaches wanted bytes
  | skip {bytes : List UInt8} {size : Nat} (hsize : Frame.declaredSize bytes = some size)
      (hle : size ≤ bytes.length) (hlater : Reaches wanted (bytes.drop size)) :
      Reaches wanted bytes

/-- And this frame begins within their last five. -/
def ReachesLate (wanted : List UInt8 → Prop) (bytes : List UInt8) : Prop :=
  Reaches (fun bytes => wanted bytes ∧ bytes.length ≤ 5) bytes

section Reaches

variable {wanted : List UInt8 → Prop} {bytes : List UInt8}

theorem Reaches.complete (hreaches : Reaches wanted bytes) : Frame.Complete bytes := by
  cases hreaches with
  | here hcomplete _ => exact hcomplete
  | skip hsize hle _ => exact ⟨_, hsize, hle⟩

theorem not_reaches_nil : ¬ Reaches wanted [] := by
  intro hreaches
  have hnot : ¬ Frame.Complete [] := by decide
  exact hnot hreaches.complete

theorem reachesLate_iff (hlate : bytes.length ≤ 5) :
    ReachesLate wanted bytes ↔ Reaches wanted bytes := by
  constructor
  · intro hreaches
    induction hreaches with
    | here hcomplete hwanted => exact .here hcomplete hwanted.1
    | skip hsize hle _ ih => exact .skip hsize hle (ih (by rw [List.length_drop]; omega))
  · intro hreaches
    induction hreaches with
    | here hcomplete hwanted => exact .here hcomplete ⟨hwanted, hlate⟩
    | skip hsize hle _ ih => exact .skip hsize hle (ih (by rw [List.length_drop]; omega))

theorem reaches_encode_append (frame : ShortFrame) {later : List UInt8} :
    Reaches wanted (frame.encode ++ later) ↔
      wanted (frame.encode ++ later) ∨ Reaches wanted later := by
  have hdeclared : Frame.declaredSize (frame.encode ++ later) = some frame.encode.length :=
    frame.declaredSize_encode frame.payload_lt later
  have hle : frame.encode.length ≤ (frame.encode ++ later).length := by simp
  constructor
  · intro hreaches
    cases hreaches with
    | here _ hwanted => exact Or.inl hwanted
    | skip hsize _ hlater =>
        obtain rfl := Option.some.inj (hdeclared.symm.trans hsize)
        rw [List.drop_left] at hlater
        exact Or.inr hlater
  · intro hreaches
    rcases hreaches with hwanted | hlater
    · exact .here ⟨_, hdeclared, hle⟩ hwanted
    · refine .skip hdeclared hle ?_
      rwa [List.drop_left]

theorem reachesLate_encode_append (frame : ShortFrame) {later : List UInt8}
    (hsix : 6 ≤ (frame.encode ++ later).length) :
    ReachesLate wanted (frame.encode ++ later) ↔ ReachesLate wanted later := by
  rw [ReachesLate, reaches_encode_append]
  exact or_iff_right fun hlate => by omega

end Reaches

/-! ## What is left when the loop waits -/

/-- Waiting for data only with no wanted frame at hand. -/
def NoneLeft (wanted : List UInt8 → Prop) (state : LoopState) : Prop :=
  state.point = .head → ¬ Reaches wanted state.recvBuf.rest

/-- The reads of a round do not end, at this step, in a way that strands a wanted
frame: with a would-block result while there is one, or otherwise with one that
begins too late for the parse loop. -/
def EndsWell (wanted : List UInt8 → Prop) (source : LoopState) (event : LoopEvent) : Prop :=
  ∀ recvStartLen totalRecvLen, source.point = .reading recvStartLen totalRecvLen →
    (event = .wouldBlock → ¬ Reaches wanted source.recvBuf.rest) ∧
    (∀ bytes pending, event = .sslRead bytes pending → pending ≤ 0 →
      ¬ ReachesLate wanted (source.recvBuf.rest ++ bytes)) ∧
    (event = .closed → 0 < totalRecvLen → ¬ ReachesLate wanted source.recvBuf.rest)

/-- The parse loop is running towards a wanted frame that it will leave. -/
def HeadsForLate (wanted : List UInt8 → Prop) (state : LoopState) : Prop :=
  ∃ packet, state.point = .parsing packet ∧ ReachesLate wanted state.recvBuf.rest

def Settled (wanted : List UInt8 → Prop) (state : LoopState) : Prop :=
  NoneLeft wanted state ∧ ¬ HeadsForLate wanted state

section Step

variable {parse : List UInt8 → Option JsonValue} {wanted : List UInt8 → Prop}
variable {left : List UInt8}

theorem settled_of_point {state : LoopState} (hhead : state.point ≠ .head)
    (hparsing : ∀ packet, state.point ≠ .parsing packet) : Settled wanted state :=
  ⟨fun hpoint => absurd hpoint hhead, fun ⟨packet, hpoint, _⟩ => hparsing packet hpoint⟩

theorem settled_endReads_iff {recvStartLen totalRecvLen : Int} (indeterminate : MaskingKey)
    (msgBuf : ByteBuffer) (hlength : recvStartLen + totalRecvLen = left.length)
    (hsmall : left.length < 2 ^ 31) :
    Settled wanted (endReads recvStartLen totalRecvLen indeterminate (cursor [] left) msgBuf) ↔
      (0 < totalRecvLen → ¬ ReachesLate wanted left) := by
  have hsmall' : ([] : List UInt8).length + left.length < 2 ^ 31 := by simpa using hsmall
  have hrest : (cursor [] left).rest = left := cursor_rest hsmall'
  unfold endReads
  rw [length_cursor hsmall', getoft_cursor hsmall', websocketHeaderMinSize]
  simp only [List.length_nil, Nat.zero_add]
  split
  next hnone =>
    exact iff_of_true (settled_of_point (by simp) (by simp)) fun hpos => by omega
  next hsome =>
    have hpos : 0 < totalRecvLen := by omega
    split
    · simp [Settled, NoneLeft, HeadsForLate, hrest, hpos]
    next hshort =>
      have hfive : left.length ≤ 5 := by omega
      simp [Settled, NoneLeft, HeadsForLate, hrest, reachesLate_iff hfive, hpos]

/-- A pass leaves a wanted frame behind exactly where it was heading for one. -/
theorem settled_parse_iff {taken rest : List ShortFrame} {moves : LoopMoves}
    {packet : WebSocketPacket} {recvBuf msgBuf : ByteBuffer} (sslWrite : List UInt8 → Int)
    (htracks : Tracks taken left moves ⟨.parsing packet, recvBuf, msgBuf⟩)
    (hleft : left <+: stream ShortFrame.encode rest) (hsource : recvBuf.data.length < 2 ^ 31)
    (htarget : (parseOnce parse sslWrite packet recvBuf msgBuf).2.recvBuf.data.length < 2 ^ 31)
    (hpoint : ∀ fault, (parseOnce parse sslWrite packet recvBuf msgBuf).2.point ≠ .faulted fault) :
    Settled wanted (parseOnce parse sslWrite packet recvBuf msgBuf).2 ↔
      ¬ ReachesLate wanted left := by
  have hparse := htracks.parse_step parse sslWrite hleft hsource
  obtain _ | _ | ⟨_, _, _, hsix⟩ := htracks.keeps
  generalize parseOnce parse sslWrite packet _ _ = pass at hparse hpoint htarget ⊢
  rcases hparse with ⟨hsame, hhead, hincomplete⟩ | ⟨frame, rest', later, rfl, rfl, hframe, hafter⟩
  · have hrest := hsame.keeps.rest_eq htarget hpoint
    refine iff_of_true ⟨fun _ => hrest ▸ fun hreaches => hincomplete hreaches.complete, ?_⟩
      fun hlate => hincomplete hlate.complete
    intro hheads
    rcases hheads with ⟨packet', hparsing, _⟩
    rw [hhead] at hparsing
    cases hparsing
  · have hrest := hframe.keeps.rest_eq htarget hpoint
    rw [reachesLate_encode_append frame hsix]
    simp only [Settled, NoneLeft, HeadsForLate, hrest]
    generalize pass.2.point = point at hafter hpoint
    cases hafter with
    | head hlate => simp [reachesLate_iff hlate]
    | parsing packet => simp
    | faulted fault => exact absurd rfl (hpoint fault)

/-- **What a step leaves behind** follows from how the reads end and from where
the parse loop was heading. -/
theorem settled_step_iff {taken rest : List ShortFrame} {moves : LoopMoves}
    {source target : LoopState} {event : LoopEvent} (htracks : Tracks taken left moves source)
    (hstep : LoopStep parse source event target) (hleft : left <+: stream ShortFrame.encode rest)
    (hsource : source.recvBuf.data.length < 2 ^ 31)
    (htarget : target.recvBuf.data.length < 2 ^ 31)
    (hpoint : ∀ fault, target.point ≠ .faulted fault) :
    Settled wanted target ↔ EndsWell wanted source event ∧ ¬ HeadsForLate wanted source := by
  have hkeeps := htracks.keeps
  cases hstep with
  | enter recvBuf msgBuf =>
      exact iff_of_true (settled_of_point (by simp) (by simp))
        ⟨by simp [EndsWell], by simp [HeadsForLate]⟩
  | sslRead recvStartLen totalRecvLen recvBuf msgBuf bytes pending indeterminate hne hmax =>
      obtain _ | ⟨_, _, hlength, hstart, htotal⟩ := hkeeps
      have hrest : (cursor [] left).rest = left := cursor_rest (by simpa using hsource)
      have hsmall : (left ++ bytes).length < 2 ^ 31 := by
        rw [readChunk_recvBuf, cursor_data, List.nil_append] at htarget
        exact htarget
      have hpos : 0 < bytes.length := List.length_pos_iff.mpr hne
      rw [readChunk_cursor pending indeterminate hlength hstart htotal (by simpa using hsmall)]
      by_cases hpending : pending > 0
      · rw [if_pos hpending]
        refine iff_of_true (settled_of_point (by simp) (by simp)) ⟨?_, by simp [HeadsForLate]⟩
        have hmore : ¬ pending ≤ 0 := by omega
        simp [EndsWell, hmore]
      · have hdone : pending ≤ 0 := by omega
        have htotal' : 0 < totalRecvLen + bytes.length := by omega
        rw [if_neg hpending, settled_endReads_iff indeterminate _
          (by rw [List.length_append]; push_cast; omega) hsmall]
        simp [EndsWell, HeadsForLate, hrest, hdone, htotal']
  | wouldBlock recvStartLen totalRecvLen recvBuf msgBuf =>
      simp [Settled, NoneLeft, HeadsForLate, EndsWell]
  | failed recvStartLen totalRecvLen recvBuf msgBuf =>
      exact iff_of_true (settled_of_point (by simp) (by simp))
        ⟨by simp [EndsWell], by simp [HeadsForLate]⟩
  | closed recvStartLen totalRecvLen recvBuf msgBuf indeterminate =>
      obtain _ | ⟨_, _, hlength, _, _⟩ := hkeeps
      have hsmall : left.length < 2 ^ 31 := by simpa using hsource
      have hrest : (cursor [] left).rest = left := cursor_rest (by simpa using hsource)
      rw [settled_endReads_iff indeterminate _ hlength hsmall]
      simp [EndsWell, HeadsForLate, hrest]
  | parse sslWrite packet recvBuf msgBuf =>
      have hrest : recvBuf.rest = left := hkeeps.rest_eq hsource (by simp)
      have hquiet : EndsWell wanted ⟨.parsing packet, recvBuf, msgBuf⟩
          (parseOnce parse sslWrite packet recvBuf msgBuf).1 := by simp [EndsWell]
      rw [settled_parse_iff sslWrite htracks hleft hsource htarget hpoint]
      simp [HeadsForLate, hrest, hquiet]

end Step

/-! ## What is left when the loop returns -/

/-- The loop does not return, at this step, while there is a wanted frame. -/
def StopsWell (wanted : List UInt8 → Prop) (source : LoopState) (event : LoopEvent) : Prop :=
  ∀ recvStartLen totalRecvLen, source.point = .reading recvStartLen totalRecvLen →
    event = .failed ∨ (event = .closed ∧ totalRecvLen ≤ 0) →
    ¬ Reaches wanted source.recvBuf.rest

theorem returned_of_stop {parse : List UInt8 → Option JsonValue} {source target : LoopState}
    {event : LoopEvent} {recvStartLen totalRecvLen : Int}
    (hstep : LoopStep parse source event target)
    (hreading : source.point = .reading recvStartLen totalRecvLen)
    (hstop : event = .failed ∨ (event = .closed ∧ totalRecvLen ≤ 0)) :
    ∃ result, target.point = .returned result := by
  cases hstep with
  | failed => exact ⟨false, rfl⟩
  | closed recvStartLen' totalRecvLen' =>
      obtain ⟨rfl, rfl⟩ := LoopPoint.reading.inj hreading
      have hnone : totalRecvLen' ≤ 0 := by simpa using hstop
      refine ⟨false, ?_⟩
      rw [endReads, if_pos hnone]
  | parse => cases hreading
  | _ => simp at hstop

theorem stopsWell_iff {parse : List UInt8 → Option JsonValue} {wanted : List UInt8 → Prop}
    {left : List UInt8} {taken rest : List ShortFrame} {moves : LoopMoves}
    {source target : LoopState} {event : LoopEvent} {result : Bool}
    (htracks : Tracks taken left moves source) (hstep : LoopStep parse source event target)
    (hleft : left <+: stream ShortFrame.encode rest) (hsource : source.recvBuf.data.length < 2 ^ 31)
    (htarget : target.recvBuf.data.length < 2 ^ 31) (hreturned : target.point = .returned result) :
    StopsWell wanted source event ↔ ¬ Reaches wanted target.recvBuf.rest := by
  have hkeeps := htracks.keeps
  cases hstep with
  | enter => cases hreturned
  | sslRead recvStartLen totalRecvLen recvBuf msgBuf bytes pending indeterminate hne hmax =>
      -- Something has been read, so the loop goes on.
      obtain _ | ⟨_, _, hlength, hstart, htotal⟩ := hkeeps
      have hsmall : left.length + bytes.length < 2 ^ 31 := by
        rw [readChunk_recvBuf, cursor_data, List.nil_append, List.length_append] at htarget
        exact htarget
      have hpos : 0 < bytes.length := List.length_pos_iff.mpr hne
      rw [readChunk_cursor pending indeterminate hlength hstart htotal hsmall] at hreturned
      split at hreturned
      · cases hreturned
      · unfold endReads at hreturned
        rw [if_neg (by omega)] at hreturned
        split at hreturned <;> cases hreturned
  | wouldBlock => cases hreturned
  | failed recvStartLen totalRecvLen recvBuf msgBuf => simp [StopsWell]
  | closed recvStartLen totalRecvLen recvBuf msgBuf indeterminate =>
      unfold endReads at hreturned ⊢
      split at hreturned
      next hnone =>
        rw [if_pos hnone]
        simp [StopsWell, hnone]
      next => split at hreturned <;> cases hreturned
  | parse sslWrite packet recvBuf msgBuf =>
      rcases htracks.parse_step parse sslWrite hleft hsource with
        ⟨_, hhead, _⟩ | ⟨_, _, _, _, _, _, hafter⟩
      · rw [hhead] at hreturned
        cases hreturned
      · rw [hreturned] at hafter
        cases hafter

section Run

variable {parse : List UInt8 → Option JsonValue} {wanted : List UInt8 → Prop}
variable {frames : List ShortFrame} {moves : LoopMoves} {state : LoopState}

theorem settled_start : Settled wanted start := by
  refine ⟨fun _ => ?_, ?_⟩
  · exact not_reaches_nil
  · intro hheads
    rcases hheads with ⟨packet, hparsing, _⟩
    cases hparsing

/-- A run that has left no wanted frame has ended its reads well, or is about to leave
one. -/
theorem endsWell_or_headsForLate (hrun : Run (LoopStep parse) start moves state)
    (hmoves : ∀ move ∈ moves, (∀ fault, move.target.point ≠ .faulted fault) →
      (Settled wanted move.target ↔
        EndsWell wanted move.source move.action ∧ ¬ HeadsForLate wanted move.source))
    (hnone : ∀ move ∈ moves, NoneLeft wanted move.target)
    (hpoint : ∀ fault, state.point ≠ .faulted fault) :
    (∀ move ∈ moves, EndsWell wanted move.source move.action) ∨ HeadsForLate wanted state := by
  induction hrun with
  | nil => simp
  | @snoc moves source target event hprior hstep ih =>
      simp only [List.forall_mem_append, List.forall_mem_singleton] at hmoves hnone ⊢
      have hsource : ∀ fault, source.point ≠ .faulted fault := by
        intro fault hfault
        cases hstep <;> cases hfault
      by_cases hlate : HeadsForLate wanted target
      · exact Or.inr hlate
      · obtain ⟨hwell, hnotLate⟩ := (hmoves.2 hpoint).mp ⟨hnone.2, hlate⟩
        rcases ih hmoves.1 hnone.1 hsource with hall | hsourceLate
        · exact Or.inl ⟨hall, hwell⟩
        · exact absurd hsourceLate hnotLate

/-- **No wanted frame is left as long as the reads end well**, and in a run that has come
to an end of its parse loop, only then. -/
theorem noneLeft_iff_endsWell (wanted : List UInt8 → Prop)
    (hrun : Run (LoopStep parse) start moves state)
    (hseen : bytesReceived moves <+: stream ShortFrame.encode frames)
    (hsmall : ∀ move ∈ moves, move.target.recvBuf.data.length < 2 ^ 31) :
    ((∀ move ∈ moves, EndsWell wanted move.source move.action) →
      ∀ move ∈ moves, NoneLeft wanted move.target) ∧
    ((∀ fault, state.point ≠ .faulted fault) → (∀ packet, state.point ≠ .parsing packet) →
      (∀ move ∈ moves, NoneLeft wanted move.target) →
      ∀ move ∈ moves, EndsWell wanted move.source move.action) := by
  have hmoves : ∀ move ∈ moves, (∀ fault, move.target.point ≠ .faulted fault) →
      (Settled wanted move.target ↔
        EndsWell wanted move.source move.action ∧ ¬ HeadsForLate wanted move.source) := by
    intro move hmove hpoint
    obtain ⟨hstep, hsource, before, taken, rest, left, htracks, hleft⟩ :=
      tracked_move hrun hseen hsmall hmove
    exact settled_step_iff htracks hstep hleft hsource (hsmall move hmove) hpoint
  constructor
  · intro hwell
    -- After a fault the loop is gone, and nothing waits.
    have hsettled := hrun.keeps_of_allowed (Settled wanted) settled_start
      (fun move hmove hsource hallowed => by
        by_cases hfault : ∃ fault, move.target.point = .faulted fault
        · obtain ⟨fault, hfault⟩ := hfault
          exact settled_of_point (by simp [hfault]) (by simp [hfault])
        · exact (hmoves move hmove fun fault h => hfault ⟨fault, h⟩).mpr ⟨hallowed, hsource.2⟩)
      hwell
    exact fun move hmove => (hsettled.1 move hmove).1
  · intro hpoint hdone hnone
    rcases endsWell_or_headsForLate hrun hmoves hnone hpoint with hall | ⟨packet, hparsing, _⟩
    · exact hall
    · exact absurd hparsing (hdone packet)

end Run

/-! ## Any complete frame -/

/-- Read frame by frame, the bytes hold a complete frame that begins within
their last five. -/
inductive LateFrame : List UInt8 → Prop
  | here {bytes : List UInt8} (hcomplete : Frame.Complete bytes) (hlate : bytes.length ≤ 5) :
      LateFrame bytes
  | skip {bytes : List UInt8} {size : Nat} (hsize : Frame.declaredSize bytes = some size)
      (hle : size ≤ bytes.length) (hlate : LateFrame (bytes.drop size)) : LateFrame bytes

/-- Waiting for data only with no complete frame at hand. -/
def NoneWaiting (state : LoopState) : Prop :=
  state.point = .head → ¬ Frame.Complete state.recvBuf.rest

/-- The reads of a round do not end, at this step, in a way that strands a
frame: with a would-block result and a complete frame, or otherwise with a
frame that begins too late for the parse loop. -/
def ReadsEndWell (source : LoopState) (event : LoopEvent) : Prop :=
  ∀ recvStartLen totalRecvLen, source.point = .reading recvStartLen totalRecvLen →
    (event = .wouldBlock → ¬ Frame.Complete source.recvBuf.rest) ∧
    (∀ bytes pending, event = .sslRead bytes pending → pending ≤ 0 →
      ¬ LateFrame (source.recvBuf.rest ++ bytes)) ∧
    (event = .closed → 0 < totalRecvLen → ¬ LateFrame source.recvBuf.rest)

theorem complete_iff_reaches {bytes : List UInt8} :
    Frame.Complete bytes ↔ Reaches (fun _ => True) bytes :=
  ⟨fun hcomplete => .here hcomplete trivial, Reaches.complete⟩

theorem lateFrame_iff_reachesLate {bytes : List UInt8} :
    LateFrame bytes ↔ ReachesLate (fun _ => True) bytes := by
  constructor
  · intro hlate
    induction hlate with
    | here hcomplete hlate => exact .here hcomplete ⟨trivial, hlate⟩
    | skip hsize hle _ ih => exact .skip hsize hle ih
  · intro hlate
    induction hlate with
    | here hcomplete hlate => exact .here hcomplete hlate.2
    | skip hsize hle _ ih => exact .skip hsize hle ih

section Frames

variable {parse : List UInt8 → Option JsonValue} {frames : List ShortFrame}
variable {moves : LoopMoves} {state : LoopState}

/-- **No complete frame is left waiting as long as the reads end well**, and in
a run that has come back to the head of the outer loop, only then. -/
theorem noneWaiting_iff_readsEndWell (hrun : Run (LoopStep parse) start moves state)
    (hseen : bytesReceived moves <+: stream ShortFrame.encode frames)
    (hsmall : ∀ move ∈ moves, move.target.recvBuf.data.length < 2 ^ 31) :
    ((∀ move ∈ moves, ReadsEndWell move.source move.action) →
      ∀ move ∈ moves, NoneWaiting move.target) ∧
    (state.point = .head → (∀ move ∈ moves, NoneWaiting move.target) →
      ∀ move ∈ moves, ReadsEndWell move.source move.action) := by
  have hleft := noneLeft_iff_endsWell (fun _ => True) hrun hseen hsmall
  simp only [NoneLeft, EndsWell, ← complete_iff_reaches, ← lateFrame_iff_reachesLate] at hleft
  refine ⟨hleft.1, fun hhead => hleft.2 ?_ ?_⟩
  · simp [hhead]
  · simp [hhead]

theorem noneWaiting_iff_readsEndWell_pingRun :
    ((∀ move ∈ pingRun.1, ReadsEndWell move.source move.action) →
      ∀ move ∈ pingRun.1, NoneWaiting move.target) ∧
    (pingRun.2.point = .head → (∀ move ∈ pingRun.1, NoneWaiting move.target) →
      ∀ move ∈ pingRun.1, ReadsEndWell move.source move.action) :=
  noneWaiting_iff_readsEndWell (play_run _)
    (show _ <+: stream ShortFrame.encode [pingFrame.toShortFrame] by decide +kernel)
    (by decide +kernel)

/-- An unmasked Ping without payload. -/
def emptyPing : ShortFrame :=
  ⟨⟨true, false, false, false, WSOpcode.Ping.number, none, []⟩, by decide⟩

/-- The two bytes of a Ping arrive, and the loop waits for more. -/
theorem emptyPing_waits :
    ∃ moves state, Run (LoopStep fun _ => none) start moves state ∧
      bytesReceived moves = emptyPing.encode ∧ state.point = .head ∧
      state.recvBuf = ⟨emptyPing.encode, 0⟩ ∧ ¬ NoneWaiting state :=
  ⟨_, _, play_run [.enter, .sslRead [0x89, 0x00] 0], by decide +kernel, by decide +kernel,
    by decide +kernel, fun hnone => hnone (by decide +kernel) (by decide +kernel)⟩

end Frames

end CppFragments
