import LdkController.AuthoritySound
import LdkController.ListingsSound

/-!
# What the stores keep

Only an executed wallet request writes the stores of offers and addresses. An
address is registered when it is given out and nothing is ever recorded for it,
so every address is told to have received nothing, and no sum of receipts can
overflow. The forwarded payments are kept as the node reports them.
-/

namespace LdkController

open Lib

/-! ## Addresses given out -/

/-- The addresses that the entries of a URI are given, from the entry at `i` on. -/
def onchainAddresses (receiver : Receiver) : Nat → List Bip321MethodEntry → List String
  | _, [] => []
  | i, entry :: entries =>
    (if entry.method = "onchain" ∧ ¬ entry.addressType.any (· ≠ "p2tr") then
      (newOnchainAddress receiver i).toList else []) ++ onchainAddresses receiver (i + 1) entries

def requestAddresses (b : WalletBackend) (req : Request) : List String :=
  match b.service with
  | none => []
  | some node =>
    match req.method, req.params with
    | .makeNewAddress, _ => (node.receiver.newAddress 0).toOption.toList
    | .makeBip321, .makeBip321 params => onchainAddresses node.receiver 0 (params.methods.getD defaultMethods)
    | _, _ => []

/-- The map holds the addresses given out, with nothing received. -/
def GivenOut (map : Addresses) (given : List String) : Prop :=
  ∀ address, map.lookup address = if address ∈ given then some ⟨address, []⟩ else none

theorem GivenOut.register {map : Addresses} {given : List String} (h : GivenOut map given) (address : String) :
    GivenOut (registerAddress map address) (given ++ [address]) := by
  intro a
  unfold registerAddress
  by_cases hmem : address ∈ map
  · have hgiven : address ∈ given := by
      by_contra hno
      have hnone := h address
      rw [if_neg hno] at hnone
      exact AList.lookup_eq_none.mp hnone hmem
    rw [if_pos hmem, h a]
    have hiff : a ∈ given ++ [address] ↔ a ∈ given := by
      rw [List.mem_append, List.mem_singleton]
      exact ⟨fun ha => ha.elim id fun he => he ▸ hgiven, .inl⟩
    simp only [hiff]
  · rw [if_neg hmem]
    by_cases ha : a = address
    · subst ha
      rw [AList.lookup_insert, if_pos (by simp)]
    · rw [AList.lookup_insert_ne ha, h a]
      have hiff : a ∈ given ++ [address] ↔ a ∈ given := by
        rw [List.mem_append, List.mem_singleton]
        exact ⟨fun hmem => hmem.elim id fun he => absurd he ha, .inl⟩
      simp only [hiff]

section
variable {receiver : Receiver} {params : MakeBip321Request} {given : List String}

theorem givenOut_addEntries {entries : List Bip321MethodEntry} :
    ∀ {b : Bip321Build} {i : Nat} {given : List String}, GivenOut b.addresses given →
      GivenOut (addEntries receiver params b i entries).addresses (given ++ onchainAddresses receiver i entries) := by
  induction entries with
  | nil =>
    intro b i given h
    rw [onchainAddresses, List.append_nil]
    exact h
  | cons entry entries ih =>
    intro b i given h
    rw [onchainAddresses, ← List.append_assoc]
    refine ih ?_
    unfold addEntry
    by_cases h11 : entry.method = "bolt11"
    · have hno : ¬ (entry.method = "onchain" ∧ ¬ entry.addressType.any (· ≠ "p2tr")) := by
        rw [h11]
        exact fun hboth => absurd hboth.1 (by decide)
      rw [if_pos h11, if_neg hno, List.append_nil]
      unfold addBolt11
      cases params.amount with
      | none => exact h
      | some amountMsat =>
        simp only
        cases makeInvoice receiver i amountMsat params.message none entry.expiry with
        | none => exact h
        | some invoice => exact h
    · rw [if_neg h11]
      by_cases h12 : entry.method = "bolt12"
      · have hno : ¬ (entry.method = "onchain" ∧ ¬ entry.addressType.any (· ≠ "p2tr")) := by
          rw [h12]
          exact fun hboth => absurd hboth.1 (by decide)
        rw [if_pos h12, if_neg hno, List.append_nil]
        unfold addBolt12
        simp only
        cases makeOffer receiver i (params.amount.getD 0) (params.message.getD "bip321 offer")
            (entry.expiry.bind u32OfU64) with
        | none => exact h
        | some offer => exact h
      · rw [if_neg h12]
        by_cases hon : entry.method = "onchain"
        · rw [if_pos hon]
          unfold addOnchain
          by_cases hat : entry.addressType.any (· ≠ "p2tr") = true
          · rw [if_pos hat, if_neg fun hboth => hboth.2 hat, List.append_nil]
            exact h
          · rw [if_neg hat, if_pos ⟨hon, hat⟩]
            cases newOnchainAddress receiver i with
            | none =>
              rw [Option.toList_none, List.append_nil]
              exact h
            | some address =>
              simp only
              cases receiver.parseAddress address with
              | none => exact h.register address
              | some parsed => exact h.register address
        · rw [if_neg hon, if_neg fun hboth => hon hboth.1, List.append_nil]
          exact h

end

theorem givenOut_execute {b : WalletBackend} {build : Build} {stores : WalletStores} {given : List String}
    (h : GivenOut stores.addresses given) (c : Stores) (req : Request) (caller : String) :
    GivenOut (b.execute build stores c req caller).1.addresses (given ++ requestAddresses b req) := by
  have hnone : GivenOut stores.addresses (given ++ []) := by
    rw [List.append_nil]
    exact h
  unfold WalletBackend.execute requestAddresses
  cases req.method with
  | makeNewAddress =>
    simp only [WalletBackend.makeNewAddress]
    cases b.service with
    | none => exact hnone
    | some node =>
      simp only
      cases node.receiver.newAddress 0 with
      | error e => exact hnone
      | ok address => exact h.register address
  | makeOffer =>
    simp only [WalletBackend.makeOffer]
    cases b.service with
    | none => exact hnone
    | some node =>
      cases req.params with
      | makeOffer params =>
        simp only
        cases node.receiver.receiveBolt12 0 params.amount params.description params.expiry <;> exact hnone
      | _ => exact hnone
  | disableOffer =>
    simp only [WalletBackend.disableOffer]
    cases b.service <;> cases req.params <;> exact hnone
  | makeBip321 =>
    simp only [WalletBackend.makeBip321]
    cases b.service with
    | none => exact hnone
    | some node =>
      cases req.params with
      | makeBip321 params => exact givenOut_addEntries h
      | _ => exact hnone
  | _ => cases b.service <;> exact hnone

theorem addressEntry_unpaid (build : Build) (address : String) : addressEntry build ⟨address, []⟩ = some ⟨address, 0⟩ := rfl

theorem listed_of_givenOut {map : Addresses} {given : List String} (h : GivenOut map given) :
    map.keys.Perm given.dedup ∧ addressesListed map = map.keys.map (⟨·, 0⟩) ∧ ∀ build, ¬ SumPanics build map := by
  have hmem : ∀ address, address ∈ map.keys ↔ address ∈ given := by
    intro address
    rw [← AList.mem_keys, ← AList.lookup_isSome, h address]
    by_cases hg : address ∈ given <;> simp [hg]
  have hrecord : ∀ e ∈ map.entries, e.2 = ⟨e.1, []⟩ := by
    intro e he
    have hlookup : map.lookup e.1 = some e.2 := AList.mem_lookup_iff.mpr he
    have hgiven := h e.1
    rw [hlookup] at hgiven
    by_cases hg : e.1 ∈ given
    · rw [if_pos hg] at hgiven
      exact Option.some.inj hgiven
    · rw [if_neg hg] at hgiven
      cases hgiven
  refine ⟨(List.perm_ext_iff_of_nodup map.nodupKeys (List.nodup_dedup given)).mpr fun address => ?_, ?_, fun build => ?_⟩
  · rw [List.mem_dedup]
    exact hmem address
  · unfold addressesListed listAddresses AList.keys List.keys
    rw [List.map_map, List.map_map]
    apply List.map_congr_left
    intro e he
    simp [hrecord e he]
  · intro hpanics
    obtain ⟨-, record, hrec, hover⟩ := hpanics
    obtain ⟨e, he, rfl⟩ := List.mem_map.mp hrec
    rw [hrecord e he] at hover
    exact absurd hover (Nat.not_lt_zero _)

/-! ## Requests over the relay -/

namespace Relay

section
variable (texts : Texts) (env : Env) (s : Service) (caller : String) (m : Meets) (request : Request)

/-- The request got to its handler, and the handler ran. -/
def Executed : Prop :=
  (processWalletRequest texts.render env m.payment m.wallet s.controller s.stores m.now request
    ⟨caller, 0, "", [], ""⟩).exit.executes = true ∧ request.method ∉ m.payment.forcedExecuteFailures

instance : Decidable (Executed texts env s caller m request) := inferInstanceAs (Decidable (_ ∧ _))

theorem stores_processWalletRequest :
    (processWalletRequest texts.render env m.payment m.wallet s.controller s.stores m.now request
        ⟨caller, 0, "", [], ""⟩).stores =
      if Executed texts env s caller m request ∧ walletMethod request.method = true then
        (m.wallet.execute env.build s.stores s.controller.toStores request caller).1
      else s.stores := if_congr and_assoc.symm rfl rfl

/-- What happens to the stores on a request, given what its execution does to them. -/
def callChanges {γ : Type} (changes : WalletBackend → WalletStores → Request → List γ) : Body → List γ
  | .wallet request => if Executed texts env s caller m request then changes m.wallet s.stores request else []
  | _ => []

end

section
variable {keys : Keys} {secretKey : String} {texts : Texts} {env : Env} {s : Service}

/-- What executions keep, requests keep. -/
theorem kept_answerCall {γ : Type} {changes : WalletBackend → WalletStores → Request → List γ}
    {R : WalletStores → List γ → Prop}
    (hexecute : ∀ {stores log} b c req caller, R stores log →
      R (WalletBackend.execute env.build b stores c req caller).1 (log ++ changes b stores req))
    (hother : ∀ b stores req, walletMethod req.method = false → changes b stores req = [])
    {log : List γ} (h : R s.stores log) (caller : String) (m : Meets) (body : Body) :
    R (answerCall texts env s caller m body).1.stores (log ++ callChanges texts env s caller m changes body) := by
  have hsame : R s.stores (log ++ []) := by
    rw [List.append_nil]
    exact h
  cases body with
  | wallet request =>
    simp only [answerCall, callChanges]
    rw [stores_processWalletRequest]
    by_cases hex : Executed texts env s caller m request
    · rw [if_pos hex]
      cases hmethod : walletMethod request.method with
      | true =>
        rw [if_pos ⟨hex, rfl⟩]
        exact hexecute _ _ _ _ h
      | false =>
        rw [if_neg fun hboth => Bool.false_ne_true hboth.2, hother _ _ _ hmethod]
        exact hsame
    · rw [if_neg hex, if_neg fun hboth => hex hboth.1]
      exact hsame
  | control call => exact hsame
  | malformed decrypted => exact hsame
  | unsupported responseKind scheme => exact hsame

end

/-! ## The run -/

section
variable (keys : Keys) (secretKey : String) (texts : Texts) (env : Env)

def clearAddresses (s : Service) : Clear → Option (List String)
  | .call body caller _ m =>
    if s.serving then some (callChanges texts env s caller m (fun b _ req => requestAddresses b req) body) else none
  | _ => none

def addressesGiven (s : Service) (i : Input) : Option (List String) :=
  (opened keys secretKey texts i).bind (clearAddresses texts env s)

end

section
variable {keys : Keys} {secretKey : String} {texts : Texts} {env : Env} {s : Service}

theorem requestAddresses_of_not_walletMethod (b : WalletBackend) {req : Request} (h : walletMethod req.method = false) :
    requestAddresses b req = [] := by
  unfold requestAddresses
  cases b.service with
  | none => rfl
  | some node =>
    cases hm : req.method with
    | makeNewAddress => rw [hm] at h; cases h
    | makeBip321 => rw [hm] at h; cases h
    | _ => rfl

theorem givenOut_clearStep {history : List (List String)} (h : GivenOut s.stores.addresses history.flatten) (c : Clear) :
    GivenOut (clearStep texts env s c).stores.addresses (history ++ (clearAddresses texts env s c).toList).flatten := by
  have hsame : GivenOut s.stores.addresses (history ++ (none : Option (List String)).toList).flatten := by
    rw [Option.toList_none, List.append_nil]
    exact h
  cases c with
  | call body caller id m =>
    simp only [clearStep, clearAddresses]
    by_cases hs : s.serving = true
    · rw [if_pos hs, if_pos hs, Option.toList_some, List.flatten_append, List.flatten_singleton]
      exact kept_answerCall (R := fun stores given => GivenOut stores.addresses given)
        (fun b c req caller hgiven => givenOut_execute hgiven c req caller)
        (fun b _ req hmethod => requestAddresses_of_not_walletMethod b hmethod) h caller m body
    · rw [if_neg hs, if_neg hs]
      exact hsame
  | grant event now =>
    simp only [clearStep]
    by_cases hs : s.serving = true
    · rw [if_pos hs]
      exact hsame
    · rw [if_neg hs]
      exact hsame
  | fetched event now => exact hsame
  | ldkEvent event node fails now =>
    simp only [clearStep]
    by_cases hl : s.listening = true
    · rw [if_pos hl]
      exact hsame
    · rw [if_neg hl]
      exact hsame

end

/-- **Addresses.** Whatever the service has been through and whatever build it is, each address that it gave out is
listed once, and every look at one tells that nothing was received. -/
theorem addresses_unpaid (keys : Keys) (secretKey : String) (texts : Texts) (env : Env) (relay : Option String)
    (l : List Input) :
    let stores := (exec (step keys secretKey texts env) (.init relay) l).stores
    let given := (answers (step keys secretKey texts env) (addressesGiven keys secretKey texts env) (.init relay) l).flatten
    (∀ build address, WalletBackend.lookupAddress build stores ⟨.lookupAddress, .lookupAddress address⟩ =
      if address ∈ given then .ok (.lookupAddress ⟨address, 0, []⟩)
      else .err ⟨.notFound, "address not found: " ++ address⟩) ∧
    ∃ all : List String, all.Perm given.dedup ∧ ∀ build limit offset,
      executeListAddresses build stores.addresses ⟨.listAddresses, .listAddresses ⟨limit, offset⟩⟩ =
        .ok (slice limit offset (all.map (⟨·, 0⟩))) := by
  intro stores given
  have hstart : GivenOut (Service.init relay).stores.addresses ([] : List (List String)).flatten := fun _ => rfl
  have hend : GivenOut stores.addresses ([] ++ answers (step keys secretKey texts env)
      (addressesGiven keys secretKey texts env) (.init relay) l).flatten :=
    exec_opened (R := fun s history => GivenOut s.stores.addresses history.flatten)
      (fun s h c hs => givenOut_clearStep hs c) l hstart
  rw [List.nil_append] at hend
  refine ⟨fun build address => ?_, stores.addresses.keys, (listed_of_givenOut hend).1, fun build limit offset => ?_⟩
  · simp only [WalletBackend.lookupAddress, getAddress, hend address]
    by_cases hg : address ∈ given
    · rw [if_pos hg]
      simp only [if_pos hg, addressEntry_unpaid]
    · rw [if_neg hg]
      simp only [if_neg hg]
  · obtain ⟨-, hlisted, hfits⟩ := listed_of_givenOut hend
    rw [executeListAddresses_eq, if_neg (hfits build), hlisted]

/-! ## Forwarded payments -/

def clearForwarded (s : Service) : Clear → Option ForwardingEntry
  | .ldkEvent (.paymentForwarded prev next fee outbound) _ _ now =>
    if s.listening then
      some ⟨prev, next, min (outbound.getD 0 + fee.getD 0) u64Max, outbound.getD 0, fee.getD 0, now⟩
    else none
  | _ => none

def forwarded (keys : Keys) (secretKey : String) (texts : Texts) (s : Service) (i : Input) : Option ForwardingEntry :=
  (opened keys secretKey texts i).bind (clearForwarded s)

theorem history_recordOfferPayment (build : Build) (node : NodeView) (s : EventStores) (hexHash : String)
    (amountMsat : Nat) : (recordOfferPayment build node s hexHash amountMsat).1.forwardingHistory = s.forwardingHistory := by
  unfold recordOfferPayment
  cases lookupPaymentByHash node hexHash with
  | err e => rfl
  | panic => rfl
  | ok details =>
    simp only
    cases offerOfPayment s.offers details with
    | none => rfl
    | some key =>
      simp only
      cases recordPayment build s.offers key amountMsat <;> rfl

theorem authorizeControlMethod_of_permits {st : Stores} {caller method : String} {profile : UsageProfile}
    (hprofile : st.getUsageProfile caller = some profile) (hpermits : PermitsControl profile method) :
    authorizeControlMethod st caller method = .ok () := by
  obtain ⟨control, hcontrol, hmem⟩ := hpermits
  have hnonempty : ¬ control.entries.isEmpty = true := by
    intro hempty
    have hnone : ∀ key, key ∉ control := by
      intro key hkey
      rw [AList.mem_keys, AList.keys, List.isEmpty_iff.mp hempty] at hkey
      cases hkey
    exact hmem.elim (hnone _) (hnone _)
  have hno : ¬ (control.entries.isEmpty = true ∨ (method ∉ control ∧ "ALL" ∉ control)) :=
    fun h => h.elim hnonempty fun hnot => hmem.elim hnot.1 hnot.2
  unfold authorizeControlMethod
  simp only [hprofile, hcontrol, if_neg hno]

section
variable {keys : Keys} {secretKey : String} {texts : Texts} {env : Env} {s : Service}

theorem history_clearStep {entries : List ForwardingEntry} (h : s.history = entries) (c : Clear) :
    (clearStep texts env s c).history = entries ++ (clearForwarded s c).toList := by
  have hsame : s.history = entries ++ (none : Option ForwardingEntry).toList := by
    rw [Option.toList_none, List.append_nil]
    exact h
  cases c with
  | call body caller id m =>
    simp only [clearStep]
    by_cases hs : s.serving = true
    · rw [if_pos hs]
      cases body <;> exact hsame
    · rw [if_neg hs]
      exact hsame
  | grant event now =>
    simp only [clearStep]
    by_cases hs : s.serving = true
    · rw [if_pos hs]
      exact hsame
    · rw [if_neg hs]
      exact hsame
  | fetched event now => exact hsame
  | ldkEvent event node fails now =>
    simp only [clearStep]
    by_cases hl : s.listening = true
    · rw [if_pos hl]
      simp only [handleNodeEvent]
      cases event with
      | paymentForwarded prev next fee outbound =>
        simp only [handleLdkEvent, clearForwarded, if_pos hl, h, Option.toList_some]
      | paymentReceived hash amount =>
        simp only [handleLdkEvent]
        generalize publishNwcNotification fails s.controller.subscriptions "payment_received"
          (.paymentReceived (hexPaymentHash hash.toList) amount) = published
        obtain ⟨published, e | u⟩ := published
        · exact hsame
        · exact (history_recordOfferPayment ..).trans hsame
      | _ => exact hsame
    · rw [if_neg hl]
      cases event <;> simp only [clearForwarded, if_neg hl] <;> exact hsame

end

/-- **Forwarded payments.** A client whose grant permits it is told, of the payments that the node reported as forwarded
so far, the page that it asks for, in order and each once. -/
theorem forwards_told (keys : Keys) (secretKey : String) (texts : Texts) (env : Env) (relay : Option String)
    (l : List Input) {caller id : String} {m : Meets} {params : Json} {p : GetForwardingHistoryParams}
    {profile : UsageProfile} (hserving : (exec (step keys secretKey texts env) (.init relay) l).serving = true)
    (hprofile : profileOf relay texts (answers (step keys secretKey texts env) granted (.init relay) l) caller =
      some profile)
    (hpermits : PermitsControl profile "get_forwarding_history")
    (hparams : GetForwardingHistoryParams.deserialize params = some p) :
    let s := exec (step keys secretKey texts env) (.init relay) l
    let forwards := answers (step keys secretKey texts env) (forwarded keys secretKey texts) (.init relay) l
    let page := ((forwards.filter (settledWithin p.fromSecs p.untilSecs)).drop p.offset).take p.limit
    clearReply texts env s (.call (.control ⟨"get_forwarding_history", params⟩) caller id m) =
      some ⟨controlResponseKind, caller, id,
        some (texts.controlJson (.ofResult "get_forwarding_history" (.forwards page)))⟩ := by
  intro s forwards page
  have hstart : (Service.init relay).history = [] := rfl
  have hhistory : s.history = [] ++ forwards :=
    exec_opened (R := fun s entries => s.history = entries) (fun s h c hs => history_clearStep hs c) l hstart
  have hgranted : s.controller.getUsageProfile caller = some profile :=
    ((decided_exec keys secretKey env relay texts l).profiles caller).trans hprofile
  have hauthorized := authorizeControlMethod_of_permits hgranted hpermits
  have hanswer : (processControlCall env.build (controlBackend texts s m) s.controller ⟨"get_forwarding_history", params⟩
      caller).reply = some (.ofResult "get_forwarding_history" (.forwards page)) := by
    have hsupported : ¬ "get_forwarding_history" ∉ supportedControlMethods := by decide
    have hother : ¬ "get_forwarding_history" = "subscribe_notifications" := by decide
    have harm : (controlBackend texts s m).arm env.build "get_forwarding_history" params =
        (controlBackend texts s m).getForwardingHistory params := rfl
    have hpage : getHistory s.history p.fromSecs p.untilSecs p.limit p.offset = page := by
      rw [getHistory_settledWithin, hhistory, List.nil_append]
    unfold processControlCall
    simp only [hauthorized, if_neg hsupported, if_neg hother, harm]
    unfold ControlBackend.getForwardingHistory ControlBackend.withParams
    rw [hparams]
    exact congrArg (fun forwards => some (ControlReply.ofResult "get_forwarding_history" (.forwards forwards))) hpage
  simp only [clearReply, if_pos (show s.serving = true from hserving), answerCall, hanswer, Option.map_some]

namespace Sample

def controlTexts : Texts :=
  { texts with
    parseProfile content :=
      if content = "control" then some ⟨none, none, some (AList.singleton "ALL" ⟨none⟩)⟩ else none }

/-- A payment is forwarded before the grant comes. -/
def forwardRun : List Input :=
  [.ldkEvent (.paymentForwarded "a" "b" (some 2) (some 40)) ⟨fun _ => none, []⟩ (fun _ _ => none) 6,
    .fetched ⟨"owner", 5, "0a", [["d", "node:alice"]], "control"⟩ 7]

end Sample

theorem forwards_told_one :
    clearReply Sample.controlTexts Sample.env
        (exec (step Sample.keys "node" Sample.controlTexts Sample.env) (.init (some "node")) Sample.forwardRun)
        (.call (.control ⟨"get_forwarding_history", .obj []⟩) "alice" "02" Sample.meets) =
      some ⟨controlResponseKind, "alice", "02",
        some (Sample.controlTexts.controlJson (.ofResult "get_forwarding_history" (.forwards [⟨"a", "b", 42, 40, 2, 6⟩])))⟩ := by
  have hparams : GetForwardingHistoryParams.deserialize (.obj []) = some ⟨⟨100, 0⟩, none, none⟩ := rfl
  have hpermits : PermitsControl ⟨none, none, some (AList.singleton "ALL" ⟨none⟩)⟩ "get_forwarding_history" :=
    ⟨_, rfl, .inr (by decide)⟩
  exact forwards_told Sample.keys "node" Sample.controlTexts Sample.env (some "node") Sample.forwardRun rfl rfl hpermits
    hparams

end Relay

end LdkController
