import LdkController.Bip321
import LdkController.SpendSound

/-!
# Amounts of payment URIs

A URI states satoshis, an invoice and a charge millisatoshis. The maker of a URI
rounds down to satoshis and the payer multiplies by 1000, so an amount comes
back only if it is a whole number of satoshis; and the product is exact only
while it fits in a `u64`.
-/

namespace LdkController

open Lib

/-! ## Satoshis to millisatoshis -/

def spendSats (env : Env) (request : Request) : Option Nat :=
  match request.params with
  | .payOnchain params => some params.amountSats
  | .payBip321 uri => (env.parseBip321 uri).toOption.bind (·.amount)
  | _ => none

/-- The conversion of `request_spend_msat`, and the one of `PayBip321Handler` when it is executed. -/
structure SatsExact (env : Env) (request : Request) (sats : Nat) : Prop where
  charged : requestSpendMsat env request = (.ok (some (min (1000 * sats) u64Max)) : Outcome Response _)
  handed : ∀ uriStr uri, request.params = .payBip321 uriStr → env.parseBip321 uriStr = .ok uri →
    ∀ (backend : Backend) (node : Node) (caller : String), backend.service = some node →
      payBip321Handler.execute env backend request caller = payUri node uri (some (min (1000 * sats) u64Max))
  same : ∀ address feerate, requestSpendMsat env request =
    (requestSpendMsat env ⟨.payOnchain, .payOnchain ⟨address, sats, feerate⟩⟩ : Outcome Response _)

theorem toMsat_of_le {ε : Type} {env : Env} {sats : Nat} (h : sats * 1000 ≤ u64Max) :
    env.toMsat sats = (.ok (min (1000 * sats) u64Max) : Outcome ε Nat) := by
  rw [toMsat_eq_ok, Nat.mul_comm 1000, min_eq_left h]
  exact if_pos h

/-- The wrapped product is even, the greatest `u64` is odd. -/
theorem le_of_toMsat {ε : Type} {env : Env} {sats : Nat}
    (h : env.toMsat sats = (.ok (min (1000 * sats) u64Max) : Outcome ε Nat)) : sats * 1000 ≤ u64Max := by
  have hmod := Build.mulU64_eq_mod (toMsat_eq_ok.mp h)
  unfold u64Max at hmod ⊢
  omega

theorem execute_payBip321 {env : Env} {backend : Backend} {node : Node} {uriStr : String} {uri : Bip321Uri}
    {sats msat : Nat} {method : Method} (caller : String) (hn : backend.service = some node)
    (hu : env.parseBip321 uriStr = .ok uri) (ha : uri.amount = some sats)
    (hm : env.toMsat sats = (.ok msat : Outcome NIP47Error Nat)) :
    payBip321Handler.execute env backend ⟨method, .payBip321 uriStr⟩ caller = payUri node uri (some msat) := by
  simp only [payBip321Handler, hn, hu, ha, hm]

theorem requestSpendMsat_payOnchain (env : Env) (method : Method) (params : PayOnchainRequest) :
    requestSpendMsat env ⟨method, .payOnchain params⟩ =
      (.ok (some (min (1000 * params.amountSats) u64Max)) : Outcome Response _) := by
  rw [Nat.mul_comm]
  rfl

section
variable {env : Env} {method : Method} {uriStr : String} {sats : Nat}
  (h : (env.parseBip321 uriStr).toOption.bind (·.amount) = some sats)
include h

theorem requestSpendMsat_payBip321 : requestSpendMsat env ⟨method, .payBip321 uriStr⟩ =
    (do return some (← env.toMsat sats) : Outcome Response _) := by
  simp only [requestSpendMsat, h]

theorem requestSpendMsat_of_le (hle : sats * 1000 ≤ u64Max) : requestSpendMsat env ⟨method, .payBip321 uriStr⟩ =
    (.ok (some (min (1000 * sats) u64Max)) : Outcome Response _) := by
  rw [requestSpendMsat_payBip321 h, toMsat_of_le hle]
  rfl

theorem le_of_requestSpendMsat (hcharged : requestSpendMsat env ⟨method, .payBip321 uriStr⟩ =
    (.ok (some (min (1000 * sats) u64Max)) : Outcome Response _)) : sats * 1000 ≤ u64Max := by
  rw [requestSpendMsat_payBip321 h] at hcharged
  cases hm : (env.toMsat sats : Outcome Response Nat) with
  | ok msat =>
    rw [hm] at hcharged
    obtain rfl := Option.some.inj (Outcome.ok.inj hcharged)
    exact le_of_toMsat hm
  | err e => rw [hm] at hcharged; cases hcharged
  | panic => rw [hm] at hcharged; cases hcharged

end

/-- A request that states satoshis is charged and executed with `min (1000 * sats) u64Max`
exactly when it pays on chain or the product fits. -/
theorem sats_exact_iff {env : Env} {request : Request} {sats : Nat} (h : spendSats env request = some sats) :
    SatsExact env request sats ↔ (∃ params, request.params = .payOnchain params) ∨ sats * 1000 ≤ u64Max := by
  obtain ⟨method, params⟩ := request
  unfold spendSats at h
  cases params with
  | payOnchain p =>
    obtain rfl := Option.some.inj h
    refine ⟨fun _ => .inl ⟨p, rfl⟩, fun _ => ⟨requestSpendMsat_payOnchain env method p, ?_, ?_⟩⟩
    · intro uriStr uri hp
      cases hp
    · intro address feerate
      rw [requestSpendMsat_payOnchain, requestSpendMsat_payOnchain]
  | payBip321 uriStr =>
    constructor
    · intro hx
      exact .inr (le_of_requestSpendMsat h hx.charged)
    · rintro (⟨p, hp⟩ | hle)
      · cases hp
      · refine ⟨requestSpendMsat_of_le h hle, ?_, ?_⟩
        · intro uriStr' uri hp hu backend node caller hn
          obtain rfl := RequestParams.payBip321.inj hp
          dsimp only at h
          rw [hu] at h
          exact execute_payBip321 caller hn hu h (toMsat_of_le hle)
        · intro address feerate
          rw [requestSpendMsat_of_le h hle, requestSpendMsat_payOnchain]
  | _ => cases h

namespace Sample

def address : String := "bc1p5cyxnuxmeuwuvkwfem96lqzszd02n6xdcjrs20cac6yqjjwudpxqkedrcr"

def addressUri : String := "bitcoin:bc1p5cyxnuxmeuwuvkwfem96lqzszd02n6xdcjrs20cac6yqjjwudpxqkedrcr?amount=184467440.73709552"

def overflowing : Nat := 18446744073709552

def uriEnv (build : Build) (sats : Nat) : Env :=
  ⟨build, fun s => if s = addressUri then .ok ⟨some sats, [], [], some address, some address⟩ else .error "invalid uri"⟩

end Sample

theorem sats_exact_small :
    SatsExact (Sample.uriEnv .release 5000) ⟨.payBip321, .payBip321 Sample.addressUri⟩ 5000 :=
  (sats_exact_iff (by decide)).mpr (.inr (by decide))

/-- A release build charges 384 msat for the greatest amounts, a debug build panics. -/
theorem sats_exact_fails :
    requestSpendMsat (Sample.uriEnv .release Sample.overflowing) ⟨.payBip321, .payBip321 Sample.addressUri⟩ =
        (.ok (some 384) : Outcome Response _) ∧
      requestSpendMsat (Sample.uriEnv ⟨true⟩ Sample.overflowing) ⟨.payBip321, .payBip321 Sample.addressUri⟩ =
        (.panic : Outcome Response _) ∧
      ¬ ∀ (env : Env) (request : Request) (sats : Nat), sats ≤ u64Max → spendSats env request = some sats →
        SatsExact env request sats := by
  refine ⟨by decide, by decide, fun h => ?_⟩
  have := (h (Sample.uriEnv .release Sample.overflowing) ⟨.payBip321, .payBip321 Sample.addressUri⟩
    Sample.overflowing (by decide) (by decide)).charged
  revert this
  decide

/-! ## The round trip of an amount -/

/-- Whatever node pays the URI, `pay_bip321` hands this amount to `pay_invoice`. -/
def HandsOver (env : Env) (uriStr invoice : String) (amountMsat : Nat) : Prop :=
  ∀ (backend : Backend) (node : Node) (caller : String), backend.service = some node →
    payBip321Handler.execute env backend ⟨.payBip321, .payBip321 uriStr⟩ caller =
      (payInvoice node invoice (some amountMsat)).respond "pay_bip321/bolt11" fun payment =>
        .ofResult .payBip321 (.payBip321 (some payment.preimage) none payment.feesPaidMsat "bolt11")

def payingNode : Node where
  parseInvoice _ := .ok ⟨none⟩
  parseOffer _ := .ok ⟨none⟩
  parsePubkey s := .ok s
  parseAddress s := .ok s
  send _ := .ok "payment"
  listPayments _ := []
  elapsedNanos i := 100000000 * i + 1
  sleep_le i := Nat.le_succ (100000000 * i)

theorem HandsOver.unique {env : Env} {uriStr invoice : String} {a b : Nat} (ha : HandsOver env uriStr invoice a)
    (hb : HandsOver env uriStr invoice b) : a = b := by
  have hn : (⟨some payingNode, [], "", fun _ _ => .panic⟩ : Backend).service = some payingNode := rfl
  have hsent := congrArg Execution.sent ((ha _ _ "" hn).symm.trans (hb _ _ "" hn))
  have heq : (Sent.bolt11UsingAmount ⟨none⟩ a, "payment") = (Sent.bolt11UsingAmount ⟨none⟩ b, "payment") :=
    Option.some.inj hsent
  cases heq
  rfl

theorem handsOver_of_parse {env : Env} {uriStr invoice : String} {rest : List String} {uri : Bip321Uri} {sats : Nat}
    (hu : env.parseBip321 uriStr = .ok uri) (ha : uri.amount = some sats) (hl : uri.lightning = invoice :: rest)
    (hfit : sats * 1000 ≤ u64Max) : HandsOver env uriStr invoice (sats * 1000) := by
  intro backend node caller hn
  have hm : env.toMsat sats = (.ok (min (1000 * sats) u64Max) : Outcome NIP47Error Nat) := toMsat_of_le hfit
  rw [Nat.mul_comm 1000, min_eq_left hfit] at hm
  rw [execute_payBip321 caller hn hu ha hm]
  simp only [payUri, hl]

/-- **The round trip.** A URI with an invoice is returned, the invoice was made for the
requested amount, and the payer of the URI hands the same amount to `pay_invoice` exactly
when that is a whole number of satoshis. -/
theorem bip321_round_trip_iff {env : Env} {format : Bip321Draft → String} {receiver : Receiver}
    {params : MakeBip321Request} {offers : Offers} {addresses : Addresses} {a : Nat} {invoice : String}
    {rest : List String} (ha : params.amount = some a) (hfit : a ≤ u64Max)
    (hl : (buildBip321 receiver params offers addresses).uri.lightning = invoice :: rest)
    (hround : env.parseBip321 (format (buildBip321 receiver params offers addresses).uri) =
      .ok (buildBip321 receiver params offers addresses).uri.toBip321Uri) :
    (executeMakeBip321 format (some receiver) offers addresses ⟨.makeBip321, .makeBip321 params⟩).2 =
        .ok (.ofResult .makeBip321 (.other (format (buildBip321 receiver params offers addresses).uri))) ∧
      ReceivedFor receiver a invoice ∧
      (HandsOver env (format (buildBip321 receiver params offers addresses).uri) invoice a ↔ a % 1000 = 0) := by
  have hinv := buildInv_buildBip321 receiver params offers addresses
  simp only [executeMakeBip321]
  generalize buildBip321 receiver params offers addresses = b at hl hround hinv ⊢
  have hgen : b.generatedAny = true := hinv.generated (by rw [hl]; exact List.cons_ne_nil _ _)
  obtain ⟨a', ha', _, hreceived⟩ := hinv.invoices invoice (by rw [hl]; exact List.mem_cons_self)
  obtain rfl := Option.some.inj (ha.symm.trans ha')
  have hamount : b.uri.toBip321Uri.amount = some (a / 1000) := by rw [hinv.amount, ha]; rfl
  have hover := handsOver_of_parse hround hamount hl (by omega)
  refine ⟨if_pos hgen, hreceived, fun h => ?_, fun h => ?_⟩
  · have heq := h.unique hover
    omega
  · have heq : a / 1000 * 1000 = a := by omega
    rwa [heq] at hover

namespace Sample

def invoiceReceiver (invoice : String) : Receiver where
  newDescription s := .ok s
  receiveBolt11 _ _ _ _ := .ok invoice
  receiveBolt12 _ _ _ _ := .error "offers are not supported"
  newAddress _ := .error "wallet locked"
  offerId _ := none
  parseAddress s := some s

def invoiceEnv (uriStr invoice : String) (sats : Nat) : Env :=
  ⟨.release, fun s => if s = uriStr then .ok ⟨some sats, [invoice], [], none, none⟩ else .error "invalid uri"⟩

def bolt11Only (amountMsat : Nat) : MakeBip321Request := ⟨some amountMsat, none, none, some [⟨"bolt11", none, none⟩]⟩

end Sample

theorem bip321_round_trip_two_sats :
    let uriStr := "bitcoin:?amount=0.00000002&lightning=lnbc20n1pvjluez"
    HandsOver (Sample.invoiceEnv uriStr "lnbc20n1pvjluez" 2) uriStr "lnbc20n1pvjluez" 2000 := by
  intro uriStr
  have htrip := @bip321_round_trip_iff (Sample.invoiceEnv uriStr "lnbc20n1pvjluez" 2) (fun _ => uriStr)
    (Sample.invoiceReceiver "lnbc20n1pvjluez") (Sample.bolt11Only 2000) ∅ ∅ 2000 "lnbc20n1pvjluez" []
    rfl (by decide) rfl rfl
  exact htrip.2.2.mpr rfl

/-- The invoice is for 1500 msat, its payer hands over 1000. -/
theorem bip321_round_trip_fails :
    ¬ ∀ (env : Env) (format : Bip321Draft → String) (receiver : Receiver) (params : MakeBip321Request)
        (offers : Offers) (addresses : Addresses) (a : Nat) (invoice : String) (rest : List String),
      params.amount = some a → 0 < a → a ≤ u64Max →
      (buildBip321 receiver params offers addresses).uri.lightning = invoice :: rest →
      env.parseBip321 (format (buildBip321 receiver params offers addresses).uri) =
        .ok (buildBip321 receiver params offers addresses).uri.toBip321Uri →
      HandsOver env (format (buildBip321 receiver params offers addresses).uri) invoice a := by
  intro h
  let uriStr := "bitcoin:?amount=0.00000001&lightning=lnbc15n1pvjluez"
  let env := Sample.invoiceEnv uriStr "lnbc15n1pvjluez" 1
  have hover := h env (fun _ => uriStr) (Sample.invoiceReceiver "lnbc15n1pvjluez") (Sample.bolt11Only 1500) ∅ ∅ 1500
    "lnbc15n1pvjluez" [] rfl (by decide) (by decide) rfl rfl
  have hsat : HandsOver env uriStr "lnbc15n1pvjluez" (1 * 1000) :=
    @handsOver_of_parse env uriStr "lnbc15n1pvjluez" [] ⟨some 1, ["lnbc15n1pvjluez"], [], none, none⟩ 1
      rfl rfl rfl (by decide)
  have := hover.unique hsat
  revert this
  decide

end LdkController
