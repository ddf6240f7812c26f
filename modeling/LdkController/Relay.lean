import LdkController.ControlMethods
import LdkController.WalletMethods

/-!
# The service on the relay

`run_nwc_service` of `src/lib.rs` once it has subscribed: the loop over the
relay's notifications with `handle_nwc_request` and `handle_control_request`, the
loop that fetches grants, and the loop over the events of the node. Each works on
one event at a time, and a step here is the handling of one event.

What other crates do is given: ciphers that open what they seal, and how
requests are read and responses written as JSON. An error that a handler returns
is only printed, so `none` stands for it.
-/

namespace LdkController.Relay

open Lib

/-! ## Sealing -/

/-- A text sealed for a key opens with its secret half and the public key of the sender. -/
structure Cipher (publicKey : String → String) where
  encrypt : String → String → Nat → String → Option String
  decrypt : String → String → String → Option String
  decrypt_encrypt : ∀ {sender reader : String} {nonce : Nat} {text sealed : String},
    encrypt sender (publicKey reader) nonce text = some sealed → decrypt reader (publicKey sender) sealed = some text

structure Keys where
  publicKey : String → String
  nip04 : Cipher publicKey
  nip44 : Cipher publicKey

def tagValue (name : String) (tags : List (List String)) : Option String :=
  tags.findSome? fun parts => if parts[0]? = some name then parts[1]? else none

def getEncryptionScheme (tags : List (List String)) : String := (tagValue "encryption" tags).getD "nip04"

def decryptContent (keys : Keys) (secretKey pubkey content scheme : String) : Option String :=
  if scheme = "nip44_v2" then keys.nip44.decrypt secretKey pubkey content
  else if scheme = "nip04" then keys.nip04.decrypt secretKey pubkey content
  else none

/-- `nonce` is the randomness that the cipher draws. -/
def encryptContent (keys : Keys) (secretKey pubkey : String) (nonce : Nat) (content scheme : String) : Option String :=
  if scheme = "nip44_v2" then keys.nip44.encrypt secretKey pubkey nonce content
  else if scheme = "nip04" then keys.nip04.encrypt secretKey pubkey nonce content
  else none

/-! ## Messages -/

structure RelayEvent extends Event where
  kind : Nat

def walletConnectRequestKind : Nat := 23194
def walletConnectResponseKind : Nat := 23195
def controlRequestKind : Nat := 23198
def controlResponseKind : Nat := 23199
def accessGrantKind : Nat := 30078

structure OutEvent where
  kind : Nat
  tags : List (List String)
  content : String
deriving DecidableEq, Repr

/-- A response, or the error for a scheme that is not supported, which answers no request. -/
inductive NwcReply where
  | response (response : Response)
  | unsupportedEncryption (message : String)

structure Texts where
  parseRequest : String → Option Request
  responseJson : NwcReply → String
  parseJson : String → Option Json
  controlJson : ControlReply → String
  payloadError : String → String
  refusal : String → Json → String
  render : WalletResult → String
  parseProfile : String → Option UsageProfile

/-! ## The state -/

structure Service where
  controller : Controller
  stores : WalletStores
  history : List ForwardingEntry
  /-- A panic ends the loop over the notifications, or the one over the node's events. -/
  serving : Bool
  listening : Bool

structure Meets where
  now : Nat
  payment : PaymentBackend
  wallet : WalletBackend
  control : Option ControlNode
  nonce : Nat
  /-- The relay takes the event. -/
  sends : Bool

inductive Effect where
  | payment (sent : Sent) (id : String)
  | command (command : NodeCommand)

structure Handled where
  service : Service
  published : Option OutEvent
  effects : List Effect

section
variable (keys : Keys) (secretKey : String) (texts : Texts) (env : Env)

def respond (event : RelayEvent) (kind : Nat) (scheme text : String) (m : Meets) : Option OutEvent :=
  match encryptContent keys secretKey event.pubkey m.nonce text scheme with
  | none => none
  | some encrypted =>
    if m.sends then
      some ⟨kind, [["p", event.pubkey], ["e", event.id]] ++
        (if scheme ≠ "nip04" then [["encryption", scheme]] else []), encrypted⟩
    else none

def handleNwcRequest (s : Service) (event : RelayEvent) (m : Meets) : Handled :=
  let scheme := getEncryptionScheme event.tags
  if scheme ≠ "nip04" ∧ scheme ≠ "nip44_v2" then
    ⟨s, respond keys secretKey event walletConnectResponseKind "nip04"
      (texts.responseJson (.unsupportedEncryption ("unsupported encryption: " ++ scheme))) m, []⟩
  else
    match (decryptContent keys secretKey event.pubkey event.content scheme).bind texts.parseRequest with
    | none => ⟨s, none, []⟩
    | some request =>
      let processed := processWalletRequest texts.render env m.payment m.wallet s.controller s.stores m.now request
        event.toEvent
      let s := { s with controller := processed.controller, stores := processed.stores }
      let effects := processed.sent.toList.map fun sent => Effect.payment sent.1 sent.2
      match processed.response with
      | none => ⟨{ s with serving := false }, none, effects⟩
      | some response =>
        ⟨s, respond keys secretKey event walletConnectResponseKind scheme (texts.responseJson (.response response)) m,
          effects⟩

def controlBackend (s : Service) (m : Meets) : ControlBackend := ⟨m.control, s.history, texts.refusal⟩

/-- A payload that is no control request is answered, too. -/
def invalidPayload (decrypted : String) : ControlReply :=
  .ofError "unknown" ⟨"OTHER", "invalid control request payload: " ++ texts.payloadError decrypted⟩

def handleControlRequest (s : Service) (event : RelayEvent) (m : Meets) : Handled :=
  let scheme := getEncryptionScheme event.tags
  if scheme ≠ "nip04" ∧ scheme ≠ "nip44_v2" then
    ⟨s, respond keys secretKey event controlResponseKind "nip04"
      (texts.controlJson (.ofError "unknown" ⟨"UNSUPPORTED_ENCRYPTION", "unsupported encryption: " ++ scheme⟩)) m, []⟩
  else
    match decryptContent keys secretKey event.pubkey event.content scheme with
    | none => ⟨s, none, []⟩
    | some decrypted =>
      match (texts.parseJson decrypted).bind ControlCall.deserialize with
      | none =>
        ⟨s, respond keys secretKey event controlResponseKind scheme (texts.controlJson (invalidPayload texts decrypted)) m,
          []⟩
      | some call =>
        let controlled := processControlCall env.build (controlBackend texts s m) s.controller call event.pubkey
        let s := { s with controller := controlled.controller }
        let effects := controlled.command.toList.map Effect.command
        match controlled.reply with
        | none => ⟨{ s with serving := false }, none, effects⟩
        | some reply =>
          ⟨s, respond keys secretKey event controlResponseKind scheme (texts.controlJson reply) m, effects⟩

def handleGrant (s : Service) (now : Nat) (event : Event) : Service :=
  { s with controller := handleGrantEvent texts.parseProfile s.controller now event }

/-- The body of the loop over the notifications. -/
def handleNotification (s : Service) (event : RelayEvent) (m : Meets) : Handled :=
  if event.kind = walletConnectRequestKind then handleNwcRequest keys secretKey texts env s event m
  else if event.kind = controlRequestKind then handleControlRequest keys secretKey texts env s event m
  else if event.kind = accessGrantKind then ⟨handleGrant texts s m.now event.toEvent, none, []⟩
  else ⟨s, none, []⟩

/-! ## One step of a loop -/

inductive Input where
  | notification (event : RelayEvent) (m : Meets)
  /-- An event among those that the other loop fetches. -/
  | fetched (event : Event) (now : Nat)
  | ldkEvent (event : LdkEvent) (node : NodeView) (fails : String → PublishStep → Option String) (now : Nat)

def handleNodeEvent (s : Service) (event : LdkEvent) (node : NodeView) (fails : String → PublishStep → Option String)
    (now : Nat) : Service :=
  let handled := LdkController.handleLdkEvent env.build node fails s.controller.subscriptions
    ⟨s.stores.offers, s.history⟩ now event
  { s with
    stores := { s.stores with offers := handled.stores.offers }
    history := handled.stores.forwardingHistory
    listening := handled.result ≠ .panic }

def handle (s : Service) : Input → Handled
  | .notification event m =>
    if s.serving then handleNotification keys secretKey texts env s event m else ⟨s, none, []⟩
  | .fetched event now => ⟨handleGrant texts s now event, none, []⟩
  | .ldkEvent event node fails now =>
    ⟨if s.listening then handleNodeEvent env s event node fails now else s, none, []⟩

def step (s : Service) (i : Input) : Service := (handle keys secretKey texts env s i).service

def reply (s : Service) (i : Input) : Option OutEvent := (handle keys secretKey texts env s i).published

def effects (s : Service) (i : Input) : List Effect := (handle keys secretKey texts env s i).effects

end

def Service.init (relayPubkey : Option String) : Service := ⟨.init relayPubkey, ⟨∅, ∅⟩, [], true, true⟩

end LdkController.Relay
