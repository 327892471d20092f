import CppFragments.Net.ReceiveLoop

/-! # The handling of a Text message

The accessors of the JSON library assert what they need of a value. The client
tests that the document parses and that members are there, and nothing else: the
kinds of the document, of its `data` and of the fields are taken on trust.
-/

namespace CppFragments

open Outcome ByteBuffer

/-! ## What the accessors need -/

namespace JsonValue

def IsObject (value : JsonValue) : Prop :=
  ∃ members, value = .object members

/-- The member of an object with the name. -/
def field (value : JsonValue) (name : String) : Option JsonValue :=
  match value with
  | .object members => members.lookup (literal name)
  | _ => none

variable {value : JsonValue} {name : String}

theorem hasMember_eq_ok_iff {there : Bool} :
    value.hasMember name = .ok there ↔ value.IsObject ∧ (value.field name).isSome = there := by
  cases value <;> simp [hasMember, findMember, IsObject, field]

theorem member_eq_ok_iff {found : JsonValue} :
    value.member name = .ok found ↔ value.field name = some found := by
  cases value with
  | object members =>
      simp only [member, findMember, field, ok_bind]
      cases members.lookup (literal name) <;> simp
  | _ => simp [member, findMember, field]

theorem getString_eq_ok_iff {text : List UInt8} :
    value.getString = .ok text ↔ value = .string text := by
  cases value <;> simp [getString]

theorem getUint64_eq_ok_iff {number : UInt64} :
    value.getUint64 = .ok number ↔ value = .uint64 number := by
  cases value <;> simp [getUint64]

theorem hasMembers_object (members : List (List UInt8 × JsonValue)) (names : List String) :
    (object members).hasMembers names =
      .ok (names.all fun name => ((object members).field name).isSome) := by
  induction names with
  | nil => rfl
  | cons name names ih =>
      have hname : (object members).hasMember name =
          .ok ((object members).field name).isSome :=
        hasMember_eq_ok_iff.mpr ⟨⟨members, rfl⟩, rfl⟩
      rw [hasMembers, hname, ok_bind, List.all_cons]
      cases ((object members).field name).isSome with
      | false => rfl
      | true => simpa using ih

/-- Once the first name is looked up, the value is known to be an object. -/
theorem hasMembers_eq_ok_iff {names : List String} {there : Bool} :
    value.hasMembers (name :: names) = .ok there ↔
      value.IsObject ∧ ((name :: names).all fun name => (value.field name).isSome) = there := by
  cases value with
  | object members =>
      rw [hasMembers_object]
      simp [IsObject]
  | _ => simp [hasMembers, hasMember, findMember, IsObject]

/-- The fields have the kinds that the client reads them as. -/
def IsTicker (value : JsonValue) : Prop :=
  (∀ name ∈ ["s", "b", "B", "a", "A"], ∃ text, value.field name = some (.string text)) ∧
    ∃ number, value.field "u" = some (.uint64 number)

/-- A document the client reads to the end: an object, whose `data`, if there, is
an object that lacks a field or has them all as the client reads them. -/
def Readable (document : JsonValue) : Prop :=
  document.IsObject ∧ ∀ value, document.field "data" = some value →
    value.IsObject ∧
      ((∃ name ∈ ["s", "b", "B", "a", "A", "u"], value.field name = none) ∨ value.IsTicker)

end JsonValue

/-! ## What is read of them -/

theorem returns_readTicker_iff {value : JsonValue} :
    Returns (readTicker value) ↔ value.IsTicker := by
  unfold readTicker JsonValue.IsTicker
  simp only [returns_bind_iff, JsonValue.member_eq_ok_iff, JsonValue.getString_eq_ok_iff,
    JsonValue.getUint64_eq_ok_iff, List.forall_mem_cons]
  simp [and_assoc]

/-- The bytes of the message up to the first NUL. -/
def messageBytes (msgBuf : ByteBuffer) : List UInt8 :=
  (msgBuf.data.take msgBuf.length.toNat).takeWhile (· ≠ 0)

/-- No byte is read that the vector does not have. -/
theorem load_message (msgBuf : ByteBuffer) :
    load msgBuf.bytes msgBuf.length.toNat = .ok (msgBuf.data.take msgBuf.length.toNat) := by
  have hle := toInt32_natCast_le msgBuf.data.length
  unfold bytes
  by_cases hzero : msgBuf.length = 0
  · rw [if_pos hzero, hzero]
    rfl
  · rw [if_neg hzero, load, if_pos]
    rw [ByteBuffer.length]
    omega

theorem messageText_eq_ok_iff {msgBuf : ByteBuffer} {text : List UInt8} :
    messageText msgBuf = .ok text ↔ 0 ≤ msgBuf.length ∧ messageBytes msgBuf = text := by
  unfold messageText
  by_cases hneg : msgBuf.length < 0
  · simp [hneg]
  · have hnonneg : 0 ≤ msgBuf.length := Int.not_lt.mp hneg
    rw [if_neg hneg, load_message, ok_bind, pure_eq_ok, messageBytes]
    simp [hnonneg]

/-- The fields are read only if all are there, and then each must be of its kind. -/
theorem returns_fields_iff {value : JsonValue} :
    Returns (do
        if ← value.hasMembers ["s", "b", "B", "a", "A", "u"] then readTicker value
        return 0 : Except Fault Int) ↔
      value.IsObject ∧
        ((∃ name ∈ ["s", "b", "B", "a", "A", "u"], value.field name = none) ∨ value.IsTicker) := by
  rw [returns_bind_iff]
  simp only [JsonValue.hasMembers_eq_ok_iff, and_assoc, exists_and_left, exists_eq_left']
  refine and_congr_right fun _ => ?_
  cases hall : ["s", "b", "B", "a", "A", "u"].all fun name => (value.field name).isSome with
  | false =>
      have hmissing : ∃ name ∈ ["s", "b", "B", "a", "A", "u"], value.field name = none := by
        simpa using List.all_eq_false.mp hall
      simp only [Bool.false_eq_true, ↓reduceIte, pure_eq_ok, returns_ok, hmissing, true_or]
  | true =>
      have hthere : ¬∃ name ∈ ["s", "b", "B", "a", "A", "u"], value.field name = none := by
        intro hmissing
        rcases hmissing with ⟨name, hname, hnone⟩
        have hsome := List.all_eq_true.mp hall name hname
        rw [hnone] at hsome
        cases hsome
      simp only [↓reduceIte, returns_bind_iff, pure_eq_ok, returns_ok, and_true, hthere, false_or]
      exact returns_readTicker_iff

theorem returns_readDocument_iff {document : JsonValue} :
    Returns (do
        if !(← document.hasMember "data") then return 1
        let value ← document.member "data"
        if ← value.hasMembers ["s", "b", "B", "a", "A", "u"] then readTicker value
        return 0 : Except Fault Int) ↔ document.Readable := by
  rw [returns_bind_iff]
  simp only [JsonValue.hasMember_eq_ok_iff, and_assoc, exists_and_left, exists_eq_left']
  refine and_congr_right fun _ => ?_
  cases hdata : document.field "data" with
  | none => simp
  | some value =>
      simp only [Option.isSome_some, Bool.not_true, Bool.false_eq_true, ↓reduceIte,
        Option.some.injEq, forall_eq']
      rw [returns_bind_iff]
      simp only [JsonValue.member_eq_ok_iff, hdata, Option.some.injEq, exists_eq_left']
      exact returns_fields_iff

/-- The Text branch returns exactly on the messages that do not parse, or parse
to a document it can read. -/
theorem returns_processText_iff {parse : List UInt8 → Option JsonValue} {msgBuf : ByteBuffer} :
    Returns (processText parse msgBuf) ↔
      0 ≤ msgBuf.length ∧
        ∀ document, parse (messageBytes msgBuf) = some document → document.Readable := by
  rw [processText, returns_bind_iff]
  simp only [messageText_eq_ok_iff, and_assoc, exists_and_left, exists_eq_left']
  refine and_congr_right fun _ => ?_
  cases parse (messageBytes msgBuf) with
  | none => simp
  | some document =>
      simp only [Option.some.injEq, forall_eq']
      exact returns_readDocument_iff

theorem processText_result (parse : List UInt8 → Option JsonValue) (msgBuf : ByteBuffer) :
    Ensures (fun result => result = 0 ∨ result = 1) (processText parse msgBuf) := by
  refine (ensures_true _).bind fun text _ => ?_
  cases parse text with
  | none => simp
  | some document =>
      refine (ensures_true _).bind fun hasData _ => ?_
      cases hasData with
      | false => simp
      | true =>
          refine (ensures_true _).bind fun value _ => ?_
          refine (ensures_true _).bind fun hasFields _ => ?_
          cases hasFields with
          | false => simp
          | true => exact (ensures_true _).bind fun _ _ => by simp

/-! ## The whole function -/

section Message

variable {parse : List UInt8 → Option JsonValue} {ssl : Option (List UInt8 → Int)}
  {packet : WebSocketPacket} {msgBuf : ByteBuffer}

/-- Nothing is written for a Text message. -/
theorem processOneMessage_text (htext : packet.opcode = WSOpcode.Text.code) :
    processOneMessage parse ssl packet msgBuf =
      ⟨[msgBuf.data], processText parse msgBuf >>= fun result => .ok ⟨result, [], packet⟩⟩ := by
  have hping : packet.opcode ≠ WSOpcode.Ping.code := by
    rw [htext]
    decide
  unfold processOneMessage
  rw [if_neg hping]
  simp only [ne_eq, not_true_eq_false, ↓reduceIte, htext, pure_eq_ok]

/-- **A Text message is handled exactly when** its length is one of an `int` and
it does not parse, or parses to a document whose parts have the kinds the client
takes for granted. -/
theorem processOneMessage_text_iff (parse : List UInt8 → Option JsonValue)
    (ssl : Option (List UInt8 → Int)) (packet : WebSocketPacket) (msgBuf : ByteBuffer)
    (htext : packet.opcode = WSOpcode.Text.code) :
    (∃ processed, (processOneMessage parse ssl packet msgBuf).outcome = .ok processed ∧
        (processed.result = 0 ∨ processed.result = 1)) ↔
      0 ≤ msgBuf.length ∧
        ∀ document, parse (messageBytes msgBuf) = some document → document.Readable := by
  rw [← returns_processText_iff, processOneMessage_text htext]
  have hresult := processText_result parse msgBuf
  constructor
  · intro hhandled
    cases hprocess : processText parse msgBuf with
    | error fault =>
        rw [hprocess, error_bind] at hhandled
        rcases hhandled with ⟨processed, herror, _⟩
        cases herror
    | ok result => exact returns_ok result
  · intro hreturns
    rcases hreturns with ⟨result, hreturn⟩
    rw [hreturn, ok_bind]
    exact ⟨_, rfl, hresult result hreturn⟩

end Message

/-- A packet that decoded a Text frame. -/
def textMessagePacket : WebSocketPacket :=
  { WebSocketPacket.new (Vector.replicate 4 0) with fin := 1, opcode := WSOpcode.Text.code }

def tickerMessage : List UInt8 :=
  literal ("\x7b\"data\":\x7b\"s\":\"X\",\"b\":\"1\",\"B\":\"2\"," ++
    "\"a\":\"3\",\"A\":\"4\",\"u\":5\x7d\x7d")

def tickerDocument : JsonValue :=
  .object [(literal "data", .object [(literal "s", .string (literal "X")),
    (literal "b", .string (literal "1")), (literal "B", .string (literal "2")),
    (literal "a", .string (literal "3")), (literal "A", .string (literal "4")),
    (literal "u", .uint64 5)])]

/-- What the JSON library makes of two messages; it is asked of no others. -/
def parseSome (text : List UInt8) : Option JsonValue :=
  if text = literal "[]" then some .array
  else if text = tickerMessage then some tickerDocument
  else none

theorem processOneMessage_text_iff_ticker :
    ∃ processed, (processOneMessage parseSome none textMessagePacket ⟨tickerMessage, 0⟩).outcome =
        .ok processed ∧ (processed.result = 0 ∨ processed.result = 1) := by
  have hparse : parseSome (messageBytes ⟨tickerMessage, 0⟩) = some tickerDocument := by
    have hbytes : messageBytes ⟨tickerMessage, 0⟩ = tickerMessage := by
      decide +kernel
    rw [hbytes, parseSome, if_neg (by decide +kernel), if_pos rfl]
  refine (processOneMessage_text_iff parseSome none textMessagePacket ⟨tickerMessage, 0⟩
    (by decide)).mpr ⟨by decide +kernel, ?_⟩
  intro document hdocument
  rw [hparse] at hdocument
  cases hdocument
  refine ⟨⟨_, rfl⟩, ?_⟩
  intro value hvalue
  cases hvalue
  refine ⟨⟨_, rfl⟩, Or.inr ⟨?_, _, rfl⟩⟩
  intro name hname
  simp only [List.mem_cons, List.not_mem_nil, or_false] at hname
  rcases hname with rfl | rfl | rfl | rfl | rfl <;> exact ⟨_, rfl⟩

/-- An array has no member `data` that could be looked for. -/
theorem arrayMessage_not_handled :
    (processOneMessage parseSome none textMessagePacket ⟨literal "[]", 0⟩).outcome =
        .error .assertionFailed ∧
      ¬∃ processed, (processOneMessage parseSome none textMessagePacket ⟨literal "[]", 0⟩).outcome =
        .ok processed ∧ (processed.result = 0 ∨ processed.result = 1) := by
  have hfault : (processOneMessage parseSome none textMessagePacket ⟨literal "[]", 0⟩).outcome =
      .error .assertionFailed := by
    have hprocess : processText parseSome ⟨literal "[]", 0⟩ = .error .assertionFailed := by
      decide +kernel
    rw [processOneMessage_text (by decide), hprocess, error_bind]
  refine ⟨hfault, ?_⟩
  intro hhandled
  rcases hhandled with ⟨processed, hprocessed, _⟩
  rw [hfault] at hprocessed
  cases hprocessed

end CppFragments
