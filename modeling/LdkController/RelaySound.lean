import LdkController.Machine
import LdkController.Relay

/-!
# The relay seen from the clients

What the service does over the relay is what a service would do that is given
its requests in the clear and answers in the clear: sealing changes neither the
state it reaches nor what a client reads. An event that cannot be opened, or is
none of the service's, leaves no trace.
-/

namespace LdkController.Relay

open Lib

/-! ## In the clear -/

inductive Body where
  | wallet (request : Request)
  | control (call : ControlCall)
  | malformed (decrypted : String)
  | unsupported (responseKind : Nat) (scheme : String)

inductive Clear where
  | call (body : Body) (caller requestId : String) (m : Meets)
  | grant (event : Event) (now : Nat)
  | fetched (event : Event) (now : Nat)
  | ldkEvent (event : LdkEvent) (node : NodeView) (fails : String → PublishStep → Option String) (now : Nat)

/-- What a client gets to read: for whom a response is, which request it answers, and its text. -/
structure Reading where
  kind : Nat
  reader : String
  requestId : String
  text : Option String
deriving DecidableEq, Repr

section
variable (keys : Keys) (secretKey : String) (texts : Texts) (env : Env)

def openBody (event : RelayEvent) (responseKind : Nat) (read : String → Option Body) : Option Body :=
  let scheme := getEncryptionScheme event.tags
  if scheme ≠ "nip04" ∧ scheme ≠ "nip44_v2" then some (.unsupported responseKind scheme)
  else (decryptContent keys secretKey event.pubkey event.content scheme).bind read

def readControl (decrypted : String) : Body :=
  match (texts.parseJson decrypted).bind ControlCall.deserialize with
  | some call => .control call
  | none => .malformed decrypted

def opened : Input → Option Clear
  | .notification event m =>
    if event.kind = walletConnectRequestKind then
      (openBody keys secretKey event walletConnectResponseKind fun text => (texts.parseRequest text).map .wallet).map
        (.call · event.pubkey event.id m)
    else if event.kind = controlRequestKind then
      (openBody keys secretKey event controlResponseKind fun text => some (readControl texts text)).map
        (.call · event.pubkey event.id m)
    else if event.kind = accessGrantKind then some (.grant event.toEvent m.now)
    else none
  | .fetched event now => some (.fetched event now)
  | .ldkEvent event node fails now => some (.ldkEvent event node fails now)

def unsupportedText (responseKind : Nat) (scheme : String) : String :=
  if responseKind = walletConnectResponseKind then
    texts.responseJson (.unsupportedEncryption ("unsupported encryption: " ++ scheme))
  else texts.controlJson (.ofError "unknown" ⟨"UNSUPPORTED_ENCRYPTION", "unsupported encryption: " ++ scheme⟩)

/-- The state that a call leaves, and the kind and text of its answer if it does not panic. Of the event that carried
it, only the author matters. -/
def answerCall (s : Service) (caller : String) (m : Meets) : Body → Service × Option (Nat × String)
  | .wallet request =>
    let processed := processWalletRequest texts.render env m.payment m.wallet s.controller s.stores m.now request
      ⟨caller, 0, "", [], ""⟩
    ({ s with controller := processed.controller, stores := processed.stores
              serving := processed.response.isSome },
      processed.response.map fun r => (walletConnectResponseKind, texts.responseJson (.response r)))
  | .control call =>
    let controlled := processControlCall env.build (controlBackend texts s m) s.controller call caller
    ({ s with controller := controlled.controller, serving := controlled.reply.isSome },
      controlled.reply.map fun r => (controlResponseKind, texts.controlJson r))
  | .malformed decrypted => (s, some (controlResponseKind, texts.controlJson (invalidPayload texts decrypted)))
  | .unsupported responseKind scheme => (s, some (responseKind, unsupportedText texts responseKind scheme))

def bodyEffects (s : Service) (caller : String) (m : Meets) : Body → List Effect
  | .wallet request =>
    (processWalletRequest texts.render env m.payment m.wallet s.controller s.stores m.now request
      ⟨caller, 0, "", [], ""⟩).sent.toList.map fun sent => .payment sent.1 sent.2
  | .control call =>
    (processControlCall env.build (controlBackend texts s m) s.controller call caller).command.toList.map .command
  | _ => []

def clearStep (s : Service) : Clear → Service
  | .call body caller _ m => if s.serving then (answerCall texts env s caller m body).1 else s
  | .grant event now => if s.serving then handleGrant texts s now event else s
  | .fetched event now => handleGrant texts s now event
  | .ldkEvent event node fails now => if s.listening then handleNodeEvent env s event node fails now else s

def clearReply (s : Service) : Clear → Option Reading
  | .call body caller requestId m =>
    if s.serving then (answerCall texts env s caller m body).2.map fun r => ⟨r.1, caller, requestId, some r.2⟩
    else none
  | _ => none

/-- The scheme of the answer: that of the request, if it is one. -/
def replyScheme (event : RelayEvent) : String :=
  if getEncryptionScheme event.tags ≠ "nip04" ∧ getEncryptionScheme event.tags ≠ "nip44_v2" then "nip04"
  else getEncryptionScheme event.tags

/-- A call that came in the event is answered in the clear, and the answer is sealed. -/
def handleBody (s : Service) (event : RelayEvent) (m : Meets) (body : Body) : Handled :=
  let answered := answerCall texts env s event.pubkey m body
  ⟨answered.1, answered.2.bind fun r => respond keys secretKey event r.1 (replyScheme event) r.2 m,
    bodyEffects texts env s event.pubkey m body⟩

/-- A client opens a response under the scheme that the response names. -/
def read (secretOf : String → String) (out : OutEvent) : Reading :=
  let reader := (tagValue "p" out.tags).getD ""
  ⟨out.kind, reader, (tagValue "e" out.tags).getD "",
    decryptContent keys (secretOf reader) (keys.publicKey secretKey) out.content (getEncryptionScheme out.tags)⟩

/-- The author of the event holds the key it signs with. -/
def Signed (secretOf : String → String) : Input → Prop
  | .notification event _ => keys.publicKey (secretOf event.pubkey) = event.pubkey
  | _ => True

end

/-! ## One event -/

section
variable {keys : Keys} {secretKey : String} {texts : Texts} {env : Env} {secretOf : String → String}

theorem decryptContent_encryptContent {sender reader scheme text sealed : String} {nonce : Nat}
    (h : encryptContent keys sender (keys.publicKey reader) nonce text scheme = some sealed) :
    decryptContent keys reader (keys.publicKey sender) sealed scheme = some text := by
  unfold encryptContent at h
  unfold decryptContent
  by_cases h44 : scheme = "nip44_v2"
  · rw [if_pos h44] at h ⊢
    exact keys.nip44.decrypt_encrypt h
  · by_cases h04 : scheme = "nip04"
    · rw [if_neg h44, if_pos h04] at h ⊢
      exact keys.nip04.decrypt_encrypt h
    · rw [if_neg h44, if_neg h04] at h
      cases h

/-- A response opens for the author of the request, and says which request it answers. -/
theorem read_respond {event : RelayEvent} {kind : Nat} {scheme text : String} {m : Meets} {out : OutEvent}
    (hsigned : keys.publicKey (secretOf event.pubkey) = event.pubkey)
    (h : respond keys secretKey event kind scheme text m = some out) :
    read keys secretKey secretOf out = ⟨kind, event.pubkey, event.id, some text⟩ := by
  unfold respond at h
  cases hseal : encryptContent keys secretKey event.pubkey m.nonce text scheme with
  | none =>
    rw [hseal] at h
    cases h
  | some encrypted =>
    simp only [hseal, Option.ite_none_right_eq_some] at h
    obtain rfl := Option.some.inj h.2
    have hscheme : getEncryptionScheme ([["p", event.pubkey], ["e", event.id]] ++
        (if scheme ≠ "nip04" then [["encryption", scheme]] else [])) = scheme := by
      by_cases h04 : scheme = "nip04" <;> simp [getEncryptionScheme, tagValue, h04]
    have hopen : decryptContent keys (secretOf event.pubkey) (keys.publicKey secretKey) encrypted scheme = some text := by
      rw [← hsigned] at hseal
      exact decryptContent_encryptContent hseal
    unfold read
    rw [hscheme]
    simp [tagValue, hopen]

theorem processWalletRequest_of_pubkey (render : WalletResult → String) (env : Env) (p : PaymentBackend)
    (b : WalletBackend) (c : Controller) (stores : WalletStores) (now : Nat) (request : Request) {event event' : Event}
    (h : event.pubkey = event'.pubkey) :
    processWalletRequest render env p b c stores now request event =
      processWalletRequest render env p b c stores now request event' := by
  unfold processWalletRequest processNwcRequest verifyAccess
  rw [h]

variable (keys secretKey texts env) in
/-- Handling a wallet request is opening it, answering it in the clear and sealing the answer. -/
theorem handleNwcRequest_eq (s : Service) (hs : s.serving = true) (event : RelayEvent) (m : Meets) :
    handleNwcRequest keys secretKey texts env s event m =
      (openBody keys secretKey event walletConnectResponseKind fun text => (texts.parseRequest text).map .wallet).elim
        ⟨s, none, []⟩ (handleBody keys secretKey texts env s event m) := by
  unfold handleNwcRequest openBody handleBody replyScheme
  by_cases hscheme : getEncryptionScheme event.tags ≠ "nip04" ∧ getEncryptionScheme event.tags ≠ "nip44_v2"
  · simp only [if_pos hscheme, Option.elim_some, answerCall, bodyEffects, Option.bind_some, unsupportedText, if_true]
  · simp only [if_neg hscheme]
    cases decryptContent keys secretKey event.pubkey event.content (getEncryptionScheme event.tags) with
    | none => rfl
    | some text =>
      simp only [Option.bind_some]
      cases texts.parseRequest text with
      | none => rfl
      | some request =>
        have heq := processWalletRequest_of_pubkey texts.render env m.payment m.wallet s.controller s.stores m.now request
          (show event.toEvent.pubkey = (⟨event.pubkey, 0, "", [], ""⟩ : Event).pubkey from rfl)
        simp only [Option.map_some, Option.elim_some, answerCall, bodyEffects, heq]
        cases (processWalletRequest texts.render env m.payment m.wallet s.controller s.stores m.now request
            ⟨event.pubkey, 0, "", [], ""⟩).response with
        | none => rfl
        | some response => simp [hs]

variable (keys secretKey texts env) in
theorem handleControlRequest_eq (s : Service) (hs : s.serving = true) (event : RelayEvent) (m : Meets) :
    handleControlRequest keys secretKey texts env s event m =
      (openBody keys secretKey event controlResponseKind fun text => some (readControl texts text)).elim
        ⟨s, none, []⟩ (handleBody keys secretKey texts env s event m) := by
  unfold handleControlRequest openBody handleBody replyScheme
  by_cases hscheme : getEncryptionScheme event.tags ≠ "nip04" ∧ getEncryptionScheme event.tags ≠ "nip44_v2"
  · have hkind : ¬ controlResponseKind = walletConnectResponseKind := by decide
    simp only [if_pos hscheme, Option.elim_some, answerCall, bodyEffects, Option.bind_some, unsupportedText, if_neg hkind]
  · simp only [if_neg hscheme]
    cases decryptContent keys secretKey event.pubkey event.content (getEncryptionScheme event.tags) with
    | none => rfl
    | some text =>
      simp only [Option.bind_some, readControl, Option.elim_some]
      cases (texts.parseJson text).bind ControlCall.deserialize with
      | none => rfl
      | some call =>
        simp only [answerCall, bodyEffects]
        cases (processControlCall env.build (controlBackend texts s m) s.controller call event.pubkey).reply with
        | none => rfl
        | some response => simp [hs]

inductive Turn (keys : Keys) (secretKey : String) (texts : Texts) (env : Env) (s : Service) (event : RelayEvent)
    (m : Meets) (said : Option Clear) (handled : Handled) : Prop
  | ignored (hkind : event.kind ≠ accessGrantKind) (hsaid : said = none) (h : handled = ⟨s, none, []⟩)
  | grant (hkind : event.kind = accessGrantKind) (hsaid : said = some (.grant event.toEvent m.now))
      (h : handled = ⟨clearStep texts env s (.grant event.toEvent m.now), none, []⟩)
  | call (hkind : event.kind ≠ accessGrantKind) (body : Body)
      (hsaid : said = some (.call body event.pubkey event.id m))
      (h : handled = if s.serving then handleBody keys secretKey texts env s event m body else ⟨s, none, []⟩)

theorem Turn.of_body {s : Service} {event : RelayEvent} {m : Meets} {handled : Handled} (o : Option Body)
    (hkind : event.kind ≠ accessGrantKind)
    (h : s.serving = true → handled = o.elim ⟨s, none, []⟩ (handleBody keys secretKey texts env s event m)) :
    Turn keys secretKey texts env s event m (o.map (.call · event.pubkey event.id m))
      (if s.serving then handled else ⟨s, none, []⟩) := by
  have hif : (if s.serving then handled else ⟨s, none, []⟩) =
      if s.serving then o.elim ⟨s, none, []⟩ (handleBody keys secretKey texts env s event m) else ⟨s, none, []⟩ := by
    by_cases hs : s.serving = true
    · rw [if_pos hs, if_pos hs, h hs]
    · rw [if_neg hs, if_neg hs]
  cases o with
  | none => exact .ignored hkind rfl (hif.trans (ite_self _))
  | some body => exact .call hkind body rfl hif

variable (keys secretKey texts env) in
/-- The kinds of events are told apart here only. -/
theorem turn_notification (s : Service) (event : RelayEvent) (m : Meets) :
    Turn keys secretKey texts env s event m (opened keys secretKey texts (.notification event m))
      (handle keys secretKey texts env s (.notification event m)) := by
  unfold opened handle handleNotification
  by_cases hwallet : event.kind = walletConnectRequestKind
  · simp only [if_pos hwallet]
    exact .of_body _ (by rw [hwallet]; decide) fun hs => handleNwcRequest_eq keys secretKey texts env s hs event m
  by_cases hcontrol : event.kind = controlRequestKind
  · simp only [if_neg hwallet, if_pos hcontrol]
    exact .of_body _ (by rw [hcontrol]; decide) fun hs => handleControlRequest_eq keys secretKey texts env s hs event m
  by_cases hgrant : event.kind = accessGrantKind
  · simp only [if_neg hwallet, if_neg hcontrol, if_pos hgrant]
    refine .grant hgrant rfl ?_
    simp only [clearStep]
    by_cases hs : s.serving = true
    · rw [if_pos hs, if_pos hs]
    · rw [if_neg hs, if_neg hs]
  · simp only [if_neg hwallet, if_neg hcontrol, if_neg hgrant]
    exact .ignored hgrant rfl (ite_self _)

/-- An event that does not open leaves no trace. -/
theorem step_of_not_opened {s : Service} {i : Input} (h : opened keys secretKey texts i = none) :
    step keys secretKey texts env s i = s ∧ reply keys secretKey texts env s i = none := by
  cases i with
  | fetched event now => cases h
  | ldkEvent event node fails now => cases h
  | notification event m =>
    cases turn_notification keys secretKey texts env s event m with
    | ignored _ _ hhandle =>
      rw [step, reply, hhandle]
      exact ⟨rfl, rfl⟩
    | grant _ hsaid _ => cases hsaid.symm.trans h
    | call _ body hsaid _ => cases hsaid.symm.trans h

/-- An event that opens is handled as what it says. -/
theorem step_of_opened {s : Service} {i : Input} {c : Clear} (h : opened keys secretKey texts i = some c) :
    step keys secretKey texts env s i = clearStep texts env s c := by
  cases i with
  | fetched event now =>
    obtain rfl := Option.some.inj h
    rfl
  | ldkEvent event node fails now =>
    obtain rfl := Option.some.inj h
    rfl
  | notification event m =>
    cases turn_notification keys secretKey texts env s event m with
    | ignored _ hsaid _ => cases hsaid.symm.trans h
    | grant _ hsaid hhandle =>
      cases hsaid.symm.trans h
      rw [step, hhandle]
    | call _ body hsaid hhandle =>
      cases hsaid.symm.trans h
      rw [step, hhandle, clearStep]
      by_cases hs : s.serving = true
      · rw [if_pos hs, if_pos hs]
        rfl
      · rw [if_neg hs, if_neg hs]

theorem read_of_opened {s : Service} {i : Input} {c : Clear} (h : opened keys secretKey texts i = some c)
    (hsigned : Signed keys secretOf i) :
    ∀ out ∈ reply keys secretKey texts env s i, clearReply texts env s c = some (read keys secretKey secretOf out) := by
  intro out hout
  unfold reply at hout
  cases i with
  | fetched event now => cases hout
  | ldkEvent event node fails now => cases hout
  | notification event m =>
    cases turn_notification keys secretKey texts env s event m with
    | ignored _ _ hhandle =>
      rw [hhandle] at hout
      cases hout
    | grant _ _ hhandle =>
      rw [hhandle] at hout
      cases hout
    | call _ body hsaid hhandle =>
      cases hsaid.symm.trans h
      rw [hhandle] at hout
      by_cases hs : s.serving = true
      · rw [if_pos hs] at hout
        obtain ⟨r, hr, hrespond⟩ := Option.bind_eq_some_iff.mp hout
        rw [read_respond hsigned hrespond]
        simp only [clearReply, if_pos hs, hr, Option.map_some]
      · rw [if_neg hs] at hout
        cases hout

/-- A history of what opened events do is kept by what each of them does in the clear. -/
theorem exec_opened {ο : Type} {tells : Service → Clear → Option ο} {R : Service → List ο → Prop}
    (hstep : ∀ s h c, R s h → R (clearStep texts env s c) (h ++ (tells s c).toList)) {s : Service} {h : List ο}
    (l : List Input) (hR : R s h) :
    R (exec (step keys secretKey texts env) s l) (h ++ answers (step keys secretKey texts env)
      (fun s i => (opened keys secretKey texts i).bind (tells s)) s l) := by
  have hone : ∀ s h i, R s h → R (step keys secretKey texts env s i)
      (h ++ ((opened keys secretKey texts i).bind (tells s)).toList) := by
    intro s h i hR
    cases hopen : opened keys secretKey texts i with
    | none =>
      rw [(step_of_not_opened hopen).1, Option.bind_none, Option.toList_none, List.append_nil]
      exact hR
    | some c =>
      rw [step_of_opened hopen]
      exact hstep s h c hR
  exact exec_history _ hone l hR

end

/-! ## The run -/

/-- The answer to the event, if there is one, is sealed and taken by the relay. -/
def Delivers (keys : Keys) (secretKey : String) (texts : Texts) (env : Env) (s : Service) (i : Input) : Prop :=
  ∀ c ∈ opened keys secretKey texts i,
    reply keys secretKey texts env s i = none → clearReply texts env s c = none

theorem refines_of_signed {keys : Keys} {secretKey : String} {texts : Texts} {env : Env} {secretOf : String → String}
    {s : Service} {l : List Input}
    (hsigned : Steps (step keys secretKey texts env) (fun _ i => Signed keys secretOf i) s l) :
    let clear := l.filterMap (opened keys secretKey texts)
    let readings := (answers (step keys secretKey texts env) (reply keys secretKey texts env) s l).map
      (read keys secretKey secretOf)
    exec (step keys secretKey texts env) s l = exec (clearStep texts env) s clear ∧
      readings.Sublist (answers (clearStep texts env) (clearReply texts env) s clear) ∧
      (Steps (step keys secretKey texts env) (Delivers keys secretKey texts env) s l →
        readings = answers (clearStep texts env) (clearReply texts env) s clear) :=
  hsigned.exec_view _ (fun _ _ _ h => step_of_not_opened h) fun _ _ _ hi h =>
    ⟨step_of_opened h, read_of_opened h hi⟩

/-- **Sealing is transparent.** Whatever events arrive, the service reaches the state it would reach with the opened
requests, and its clients read, in order, answers that it would give them in the clear; all of them if none is lost. -/
theorem relay_refines_clear (keys : Keys) (secretKey : String) (texts : Texts) (env : Env)
    (secretOf : String → String) (s : Service) (l : List Input) (hsigned : ∀ i ∈ l, Signed keys secretOf i) :
    let clear := l.filterMap (opened keys secretKey texts)
    let readings := (answers (step keys secretKey texts env) (reply keys secretKey texts env) s l).map
      (read keys secretKey secretOf)
    exec (step keys secretKey texts env) s l = exec (clearStep texts env) s clear ∧
      readings.Sublist (answers (clearStep texts env) (clearReply texts env) s clear) ∧
      (Steps (step keys secretKey texts env) (Delivers keys secretKey texts env) s l →
        readings = answers (clearStep texts env) (clearReply texts env) s clear) :=
  refines_of_signed (Steps.of_forall fun _ => hsigned)

namespace Sample

/-- A cipher that seals a text as itself, and keys that are their own public halves. -/
def cipher : Cipher id := ⟨fun _ _ _ text => some text, fun _ _ sealed => some sealed, fun h => h.symm⟩

def keys : Keys := ⟨id, cipher, cipher⟩

def texts : Texts where
  parseRequest text := if text = "get_info" then some ⟨.getInfo, .getInfo⟩ else none
  responseJson
    | .response r => r.resultType.asStr ++ (r.error.elim "" (·.message))
    | .unsupportedEncryption message => message
  parseJson _ := none
  controlJson r := r.resultType
  payloadError _ := ""
  refusal _ _ := ""
  render _ := ""
  parseProfile _ := none

def env : Env := ⟨.release, fun _ => .error ""⟩

def meets : Meets := ⟨9, ⟨none, [], ""⟩, ⟨none, "node", none, 9, fun _ => ""⟩, none, 0, true⟩

def event (author id scheme content : String) : RelayEvent :=
  ⟨⟨author, 3, id, [["p", "node"], ["encryption", scheme]], content⟩, walletConnectRequestKind⟩

/-- A request, one that cannot be read, and one under a scheme that nobody knows. -/
def run : List Input :=
  [.notification (event "alice" "01" "nip44_v2" "get_info") meets,
    .notification (event "mallory" "02" "nip04" "garbage") meets,
    .notification (event "bob" "03" "rot13" "trg_vasb") meets]

def service : Service := .init none

theorem delivers : Steps (step keys "node" texts env) (Delivers keys "node" texts env) service run := by
  refine ⟨?_, ?_, ?_, trivial⟩
  · intro c _ h
    exact absurd h (by decide)
  · intro c hc
    cases hc
  · intro c _ h
    exact absurd h (by decide)

end Sample

/-- Two of the three events are answered. -/
theorem relay_refines_clear_three :
    (answers (step Sample.keys "node" Sample.texts Sample.env) (reply Sample.keys "node" Sample.texts Sample.env)
        Sample.service Sample.run).map (read Sample.keys "node" id) =
      [⟨walletConnectResponseKind, "alice", "01", some "get_infounauthorized"⟩,
        ⟨walletConnectResponseKind, "bob", "03", some "unsupported encryption: rot13"⟩] := by
  have h := relay_refines_clear Sample.keys "node" Sample.texts Sample.env id Sample.service Sample.run
    fun i _ => by cases i <;> trivial
  rw [h.2.2 Sample.delivers]
  decide

/-! ## Requests that clients seal -/

/-- A request with the key its client seals it with, and the scheme it names. -/
structure Asked where
  secret : String
  control : Bool
  scheme : String
  text : String
  requestId : String
  createdAt : Nat
  nonce : Nat

section
variable (keys : Keys) (secretKey : String) (texts : Texts)

def Asked.event (a : Asked) : Option RelayEvent :=
  (encryptContent keys a.secret (keys.publicKey secretKey) a.nonce a.text a.scheme).map fun content => {
    pubkey := keys.publicKey a.secret
    createdAt := a.createdAt
    id := a.requestId
    tags := [["p", keys.publicKey secretKey], ["encryption", a.scheme]]
    content
    kind := if a.control then controlRequestKind else walletConnectRequestKind }

def Asked.body (a : Asked) : Option Body :=
  if a.control then some (readControl texts a.text) else (texts.parseRequest a.text).map .wallet

def Asked.clear (a : Asked) (m : Meets) : Option Clear :=
  (a.body texts).map (.call · (keys.publicKey a.secret) a.requestId m)

variable {keys secretKey texts}

end

namespace Sample

end Sample

end LdkController.Relay
