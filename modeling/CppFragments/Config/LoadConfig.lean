import CppFragments.Net.TextMessage

/-! # Loading the configuration

`Config::LoadConfig` of `config/config.cpp`. The four addresses are assigned one
after the other while they are looked up, so that a document without one of them
stops the process with the earlier ones replaced.
-/

namespace CppFragments

open Outcome

/-- The fields of `Config`. -/
inductive Address
  | binanceTickerWsIp
  | binanceTickerLocalIp
  | binanceResetRemoteIp
  | binanceResetLocalIp
  deriving DecidableEq, Repr

def Address.key : Address → String
  | .binanceTickerWsIp => "binance_ticker_ws_ip"
  | .binanceTickerLocalIp => "binance_ticker_local_ip"
  | .binanceResetRemoteIp => "binance_reset_remote_ip"
  | .binanceResetLocalIp => "binance_reset_local_ip"

/-- The order in which `LoadConfig` assigns them. -/
def Address.inOrder : List Address :=
  [.binanceTickerLocalIp, .binanceTickerWsIp, .binanceResetRemoteIp, .binanceResetLocalIp]

theorem Address.mem_inOrder (address : Address) : address ∈ inOrder := by
  cases address <;> decide

abbrev Config := Address → List UInt8

/-- What is left of a text that goes through a C string. -/
def cString (text : List UInt8) : List UInt8 :=
  text.takeWhile (· ≠ 0)

/-- How `LoadConfig` can fail to return. -/
inductive LoadFailure
  /-- There is no array of `length + 1` characters with an index `length`. -/
  | noBuffer
  /-- An accessor is used outside its contract. -/
  | accessor (fault : Fault)
  deriving DecidableEq, Repr

/-- What `Parse` gets to see of the file: `length` characters, up to a NUL. -/
def readText (content : List UInt8) : Except LoadFailure (List UInt8) :=
  let length := toInt32 content.length
  if 0 ≤ length ∧ length < 2 ^ 31 - 1 then
    .ok (cString (content.take length.toNat))
  else .error .noBuffer

/-- `doc_[key].GetString()`. -/
def readAddress (document : JsonValue) (address : Address) : Except Fault (List UInt8) := do
  let value ← document.member address.key
  value.getString

/-- The assignments, each of a C string. What has been assigned when one of them
fails is part of the result. -/
def assignAddresses (document : JsonValue) :
    List Address → Config → Except LoadFailure Bool × Config
  | [], config => (.ok true, config)
  | address :: addresses, config =>
      match readAddress document address with
      -- The assignments made so far stay.
      | .error fault => (.error (.accessor fault), config)
      | .ok text =>
          assignAddresses document addresses
            (Function.update config address (cString text))

/-- What is done with the result of `Parse`, which is `none` after an error. -/
def storeDocument (document? : Option JsonValue) (config : Config) :
    Except LoadFailure Bool × Config :=
  match document? with
  | none => (.ok false, config)
  | some document => assignAddresses document Address.inOrder config

/-- What is done once the file is read. -/
def storeText (parse : List UInt8 → Option JsonValue) (config : Config) :
    Except LoadFailure (List UInt8) → Except LoadFailure Bool × Config
  | .error failure => (.error failure, config)
  | .ok text => storeDocument (parse text) config

/-- A file that cannot be opened is `none`. -/
def loadConfig (parse : List UInt8 → Option JsonValue) (file : Option (List UInt8))
    (config : Config) : Except LoadFailure Bool × Config :=
  match file with
  | none => (.ok false, config)
  | some content => storeText parse config (readText content)

/-! ## The assignments -/

theorem readAddress_eq_ok_iff {document : JsonValue} {address : Address} {text : List UInt8} :
    readAddress document address = .ok text ↔ document.field address.key = some (.string text) := by
  unfold readAddress
  cases hmember : document.member address.key with
  | error fault =>
      rw [error_bind, ← JsonValue.member_eq_ok_iff, hmember]
      simp
  | ok value =>
      rw [ok_bind, JsonValue.getString_eq_ok_iff, JsonValue.member_eq_ok_iff.mp hmember,
        Option.some.injEq]

section Assign

variable {document : JsonValue} {addresses : List Address} {config : Config}

/-- The addresses of the list that the document has are replaced, and then come
the others. -/
theorem assignAddresses_append {texts : Config} (others : List Address)
    (hfields : ∀ address ∈ addresses,
      document.field address.key = some (.string (texts address))) :
    assignAddresses document (addresses ++ others) config =
      assignAddresses document others fun address =>
        if address ∈ addresses then cString (texts address) else config address := by
  induction addresses generalizing config with
  | nil => simp
  | cons first rest ih =>
      have hfirst := readAddress_eq_ok_iff.mpr (hfields first List.mem_cons_self)
      rw [List.cons_append, assignAddresses, hfirst]
      dsimp only
      rw [ih fun address hmem => hfields address (List.mem_cons_of_mem first hmem)]
      congr 1
      funext address
      by_cases hmem : address ∈ rest
      · rw [if_pos hmem, if_pos (List.mem_cons_of_mem first hmem)]
      · by_cases hsame : address = first
        · rw [if_neg hmem, hsame, Function.update_self, if_pos List.mem_cons_self]
        · rw [if_neg hmem, Function.update_of_ne hsame, if_neg (by simp [hsame, hmem])]

theorem assignAddresses_of_fields {texts : Config}
    (hfields : ∀ address ∈ addresses,
      document.field address.key = some (.string (texts address))) :
    assignAddresses document addresses config =
      (.ok true, fun address =>
        if address ∈ addresses then cString (texts address) else config address) := by
  have hall : assignAddresses document (addresses ++ []) config = _ :=
    assignAddresses_append [] hfields
  rw [List.append_nil, assignAddresses] at hall
  exact hall

/-- The assignments end only if the addresses of the list are all there. -/
theorem fields_of_assignAddresses {result : Bool} {config' : Config}
    (hreturn : assignAddresses document addresses config = (.ok result, config')) :
    ∀ address ∈ addresses, ∃ text, document.field address.key = some (.string text) := by
  induction addresses generalizing config with
  | nil => simp
  | cons first rest ih =>
      rw [assignAddresses] at hreturn
      cases hread : readAddress document first with
      | error fault =>
          rw [hread] at hreturn
          simp at hreturn
      | ok text =>
          rw [hread] at hreturn
          rw [List.forall_mem_cons]
          exact ⟨⟨text, readAddress_eq_ok_iff.mp hread⟩, ih hreturn⟩

end Assign

/-! ## The whole function -/

/-- The document is an object with the four addresses as strings. -/
def HasAddresses (document? : Option JsonValue) (addresses : Config) : Prop :=
  ∃ document, document? = some document ∧
    ∀ address : Address, document.field address.key = some (.string (addresses address))

/-- Loading is all or nothing: it returns true with the addresses of a document
that has them, or false without a change if the content is no such document. -/
def AllOrNothing (parse : List UInt8 → Option JsonValue) (content : List UInt8)
    (config : Config) : Prop :=
  (∃ addresses, loadConfig parse (some content) config = (.ok true, addresses) ∧
      HasAddresses (parse content) addresses) ∨
    loadConfig parse (some content) config = (.ok false, config) ∧
      ¬∃ addresses, HasAddresses (parse content) addresses

section Load

variable {document? : Option JsonValue} {config : Config}

theorem storeDocument_of_addresses {addresses : Config}
    (haddresses : HasAddresses document? addresses) :
    storeDocument document? config = (.ok true, fun address => cString (addresses address)) := by
  rcases haddresses with ⟨document, rfl, hfields⟩
  rw [storeDocument, assignAddresses_of_fields fun address _ => hfields address]
  simp [Address.mem_inOrder]

/-- Without an error of the accessors, the document was no document, or it has the
addresses. -/
theorem storeDocument_cases {result : Bool} {config' : Config}
    (hreturn : storeDocument document? config = (.ok result, config')) :
    document? = none ∨ ∃ addresses, HasAddresses document? addresses := by
  cases document? with
  | none => exact Or.inl rfl
  | some document =>
      have hfields := fields_of_assignAddresses hreturn
      choose! texts htexts using hfields
      exact Or.inr ⟨texts, document, rfl, fun address => htexts address address.mem_inOrder⟩

variable {parse : List UInt8 → Option JsonValue} {content : List UInt8}

/-- The size of the file as an `int` is one that a buffer can be made for. -/
theorem readText_eq_ok_iff {text : List UInt8} :
    readText content = .ok text ↔
      content.length % 2 ^ 32 < 2 ^ 31 - 1 ∧
        text = cString (content.take (content.length % 2 ^ 32)) := by
  have hsize : (0 ≤ toInt32 content.length ∧ toInt32 content.length < 2 ^ 31 - 1) ↔
      content.length % 2 ^ 32 < 2 ^ 31 - 1 := by
    rw [toInt32, Int.bmod_def]
    split <;> omega
  unfold readText
  dsimp only
  split
  next hfits =>
    have hlength : (toInt32 content.length).toNat = content.length % 2 ^ 32 := by
      have hlow := hfits.1
      rw [toInt32, Int.bmod_def] at hlow ⊢
      split <;> split at hlow <;> omega
    rw [hlength, Except.ok.injEq, and_iff_right (hsize.mp hfits), eq_comm]
  next hnot => exact iff_of_false (by simp) fun hread => hnot (hsize.mpr hread.1)

theorem loadConfig_of_readText {text : List UInt8} (htext : readText content = .ok text) :
    loadConfig parse (some content) config = storeDocument (parse text) config := by
  rw [loadConfig, htext, storeText]

theorem readText_of_loadConfig {result : Bool} {config' : Config}
    (hreturn : loadConfig parse (some content) config = (.ok result, config')) :
    ∃ text, readText content = .ok text := by
  cases hread : readText content with
  | error failure =>
      rw [loadConfig, hread, storeText] at hreturn
      simp at hreturn
  | ok text => exact ⟨text, rfl⟩

/-- **Loading is all or nothing exactly when** the size of the file fits, and what
is read of it does not parse, or has the addresses, as the content has them. -/
theorem allOrNothing_iff (parse : List UInt8 → Option JsonValue) (content : List UInt8)
    (config : Config) :
    AllOrNothing parse content config ↔
      content.length % 2 ^ 32 < 2 ^ 31 - 1 ∧
        ((parse (cString (content.take (content.length % 2 ^ 32))) = none ∧
            ¬∃ addresses, HasAddresses (parse content) addresses) ∨
          ∃ addresses, HasAddresses
              (parse (cString (content.take (content.length % 2 ^ 32)))) addresses ∧
            HasAddresses (parse content) fun address => cString (addresses address)) := by
  constructor
  · intro hload
    have hreturn : ∃ result config',
        loadConfig parse (some content) config = (.ok result, config') := by
      rcases hload with ⟨addresses, hreturn, _⟩ | ⟨hreturn, _⟩
      · exact ⟨_, _, hreturn⟩
      · exact ⟨_, _, hreturn⟩
    rcases hreturn with ⟨result, config', hreturn⟩
    rcases readText_of_loadConfig hreturn with ⟨text, htext⟩
    rcases readText_eq_ok_iff.mp htext with ⟨hfits, rfl⟩
    refine ⟨hfits, ?_⟩
    unfold AllOrNothing at hload
    rw [loadConfig_of_readText htext] at hreturn hload
    rcases storeDocument_cases hreturn with hparse | ⟨addresses, haddresses⟩
    · rw [hparse, storeDocument] at hload
      rcases hload with ⟨_, hstored, _⟩ | ⟨_, hnone⟩
      · simp at hstored
      · exact Or.inl ⟨hparse, hnone⟩
    · rw [storeDocument_of_addresses haddresses] at hload
      rcases hload with ⟨stored, hstored, hcontent⟩ | ⟨hstored, _⟩
      · rw [← (Prod.mk.inj hstored).2] at hcontent
        exact Or.inr ⟨addresses, haddresses, hcontent⟩
      · simp at hstored
  · intro hcondition
    rcases hcondition with ⟨hfits, hdocument⟩
    have htext := readText_eq_ok_iff.mpr ⟨hfits, rfl⟩
    unfold AllOrNothing
    rw [loadConfig_of_readText htext]
    rcases hdocument with ⟨hparse, hnone⟩ | ⟨addresses, haddresses, hcontent⟩
    · rw [hparse]
      exact Or.inr ⟨rfl, hnone⟩
    · rw [storeDocument_of_addresses haddresses]
      exact Or.inl ⟨_, rfl, hcontent⟩

/-- A file with `{}`, the empty object. -/
theorem emptyObject_not_allOrNothing :
    ¬AllOrNothing (fun text => if text = literal "\x7b\x7d" then some (.object []) else none)
      (literal "\x7b\x7d") fun _ => literal "10.0.0.1" := by
  have htext : readText (literal "\x7b\x7d") = .ok (literal "\x7b\x7d") := by
    decide +kernel
  intro hload
  unfold AllOrNothing at hload
  rw [loadConfig_of_readText htext, if_pos rfl] at hload
  rcases hload with ⟨_, hreturn, _⟩ | ⟨hreturn, _⟩
  · cases hreturn
  · cases hreturn

end Load

end CppFragments
