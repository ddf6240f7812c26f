import LdkController.Listings

/-!
# What the listings give

Each listing slices what it would give without a limit and an offset, and the
listing of payments gives the entries whose reported fields were asked for: the
filter reads the payments as the entries are written.
-/

namespace LdkController

open Lib

/-! ## Pages -/

theorem skip_eq_drop {α : Type} (pos : Nat) (l : List α) : (if 0 < pos then l.drop pos else l) = l.drop pos := by
  by_cases h : 0 < pos
  · exact if_pos h
  · rw [if_neg h, Nat.eq_zero_of_not_pos h, List.drop_zero]

theorem listPaymentsFiltered_eq (payments : List ListedPayment) (fromSecs untilSecs limit offset : Option Nat)
    (unpaid : Option Bool) (direction : Option PaymentDirection) (paymentMethod : Option PaymentMethod) :
    listPaymentsFiltered payments fromSecs untilSecs limit offset unpaid direction paymentMethod =
      slice limit offset
        (newestFirst (payments.filter (passesFilter fromSecs untilSecs unpaid direction paymentMethod))) := by
  unfold listPaymentsFiltered slice
  cases limit with
  | none => exact skip_eq_drop _ _
  | some n => exact congrArg (List.take n) (skip_eq_drop _ _)

theorem truncateTo_drop {α : Type} (limit offset : Option Nat) (l : List α) :
    truncateTo limit (l.drop (offset.getD 0)) = slice limit offset l := by
  cases limit with
  | none => rfl
  | some n => rfl

section
variable {α : Type} (limit offset : Option Nat) (l : List α)

/-- The cut, whatever of the two conditions the handler uses for an offset past the end. -/
theorem cut_eq_slice {past : Prop} [Decidable past] (hpast : past → l.length ≤ offset.getD 0)
    (hnot : ¬ past → l.length ≤ offset.getD 0 → offset.getD 0 = 0) :
    ((if 0 < offset.getD 0 ∧ offset.getD 0 < l.length then splitOff l (offset.getD 0)
      else if past then .ok []
      else .ok l : Outcome NIP47Error (List α)) >>= fun l => .ok (truncateTo limit l)) = .ok (slice limit offset l) := by
  rw [← truncateTo_drop]
  by_cases hin : 0 < offset.getD 0 ∧ offset.getD 0 < l.length
  · have hsplit : (splitOff l (offset.getD 0) : Outcome NIP47Error (List α)) = .ok (l.drop (offset.getD 0)) :=
      if_pos hin.2.le
    rw [if_pos hin, hsplit, Outcome.ok_bind]
  · rw [if_neg hin]
    by_cases h : past
    · rw [if_pos h, Outcome.ok_bind, List.drop_of_length_le (hpast h)]
    · have hzero : offset.getD 0 = 0 := by
        by_cases hle : l.length ≤ offset.getD 0
        · exact hnot h hle
        · omega
      rw [if_neg h, Outcome.ok_bind, hzero, List.drop_zero]

theorem applyOffsetLimit_eq : applyOffsetLimit offset limit l = .ok (slice limit offset l) :=
  cut_eq_slice limit offset l And.left fun hnot hle => by omega

end

/-! ## What is listed -/

def transactionsListed (payments : List ListedPayment) (params : ListTransactionsRequest) : List LookupInvoiceResponse :=
  (newestFirst (payments.filter (passesFilter params.fromSecs params.untilSecs params.unpaid
    (params.transactionType.map TransactionType.direction) params.paymentMethod))).map
      paymentDetailsToLookupInvoiceResponse

def invoicesListed (payments : List ListedPayment) (params : ListInvoicesRequest) : List InvoiceEntry :=
  (newestFirst (payments.filter (passesFilter params.fromSecs params.untilSecs (some true) (some .inbound)
    (some .bolt11)))).filterMap (invoiceEntry params.state)

def offersListed (map : Offers) (params : ListOffersRequest) : List OfferEntry :=
  ((listOffers map).filter fun record => !params.activeOnly.getD false || record.active).map offerEntry

/-- The addresses with the sums of their receipts as a word holds them. -/
def addressesListed (map : Addresses) : List AddressEntry :=
  (listAddresses map).map fun record =>
    ⟨record.address, (record.transactions.map AddressTransaction.amountSats).sum % 2 ^ 64⟩

def settledWithin (fromSecs untilSecs : Option Nat) (e : ForwardingEntry) : Bool :=
  fromSecs.all (· ≤ e.settledAt) && untilSecs.all (e.settledAt ≤ ·)

section
variable (service : Option (List ListedPayment)) (method : Method) (limit offset : Option Nat)

theorem executeListTransactions_eq (params : ListTransactionsRequest) :
    executeListTransactions service ⟨method, .listTransactions { params with limit, offset }⟩ =
      .ok (slice limit offset (transactionsListed (service.getD []) params)) := by
  cases service with
  | none => cases limit <;> simp [slice, executeListTransactions, transactionsListed, newestFirst]
  | some payments => simp only [executeListTransactions, listPaymentsFiltered_eq, slice_map]; rfl

theorem executeListInvoices_eq (params : ListInvoicesRequest) :
    executeListInvoices service ⟨method, .listInvoices { params with limit, offset }⟩ =
      .ok (slice limit offset (invoicesListed (service.getD []) params)) := by
  cases service with
  | none => cases limit <;> simp [slice, executeListInvoices, invoicesListed, newestFirst]
  | some payments =>
    have hlisted : (listPaymentsFiltered payments params.fromSecs params.untilSecs none none (some true) (some .inbound)
        (some .bolt11)).filterMap (invoiceEntry params.state) = invoicesListed payments params := by
      rw [listPaymentsFiltered_eq, slice_eq_self rfl fun _ hn => by cases hn]
      rfl
    simp only [executeListInvoices, hlisted]
    exact cut_eq_slice limit offset _ id fun hnot hle => absurd hle hnot

theorem executeListOffers_eq (map : Offers) (params : ListOffersRequest) :
    executeListOffers map ⟨method, .listOffers { params with limit, offset }⟩ =
      .ok (slice limit offset (offersListed map params)) := by
  have hactive : (fun record : OfferRecord => if params.activeOnly.getD false then record.active else true) =
      fun record => !params.activeOnly.getD false || record.active := by
    funext record
    cases params.activeOnly.getD false <;> rfl
  simp only [executeListOffers, hactive]
  exact applyOffsetLimit_eq limit offset _

theorem getHistory_settledWithin (history : List ForwardingEntry) (fromSecs untilSecs : Option Nat) (limit offset : Nat) :
    getHistory history fromSecs untilSecs limit offset =
      ((history.filter (settledWithin fromSecs untilSecs)).drop offset).take limit := by
  have hsame : (fun e : ForwardingEntry => if fromSecs.any fun fromTs => e.settledAt < fromTs then false
      else if untilSecs.any fun untilTs => untilTs < e.settledAt then false
      else true) = settledWithin fromSecs untilSecs := by
    funext e
    have hfrom : (!fromSecs.any fun t => e.settledAt < t) = fromSecs.all (· ≤ e.settledAt) := by
      cases fromSecs with
      | none => rfl
      | some t => exact decide_not.symm.trans (decide_eq_decide.mpr Nat.not_lt)
    have huntil : (!untilSecs.any fun t => t < e.settledAt) = untilSecs.all (e.settledAt ≤ ·) := by
      cases untilSecs with
      | none => rfl
      | some t => exact decide_not.symm.trans (decide_eq_decide.mpr Nat.not_lt)
    unfold settledWithin
    rw [← hfrom, ← huntil]
    cases fromSecs.any fun t => decide (e.settledAt < t) <;> cases untilSecs.any fun t => decide (t < e.settledAt) <;> rfl
  unfold getHistory
  rw [hsame]

theorem getHistory_eq (history : List ForwardingEntry) (fromSecs untilSecs : Option Nat) :
    getHistory history fromSecs untilSecs (limit.getD history.length) (offset.getD 0) =
      slice limit offset (history.filter (settledWithin fromSecs untilSecs)) := by
  rw [getHistory_settledWithin]
  cases limit with
  | some n => rfl
  | none =>
    refine List.take_of_length_le ?_
    rw [List.length_drop]
    exact (Nat.sub_le _ _).trans (List.length_filter_le _ _)

end

/-! ## Sums that panic -/

theorem mapM_eq_none {α β : Type} (f : α → Option β) (l : List α) : l.mapM f = none ↔ ∃ x ∈ l, f x = none := by
  induction l with
  | nil => simp
  | cons x l ih =>
    rw [List.mapM_cons, List.exists_mem_cons_iff, ← ih]
    cases f x with
    | none => simp
    | some y => cases l.mapM f <;> simp

theorem mapM_eq_some_map {α β : Type} {f : α → Option β} {g : α → β} :
    ∀ {l : List α}, (∀ x ∈ l, f x = some (g x)) → l.mapM f = some (l.map g)
  | [], _ => rfl
  | x :: l, h => by
    rw [List.mapM_cons, h x (by simp), mapM_eq_some_map fun y hy => h y (by simp [hy])]
    rfl

theorem addressEntry_eq (b : Build) (record : AddressRecord) : addressEntry b record =
    if u64Max < (record.transactions.map AddressTransaction.amountSats).sum ∧ b.overflowChecks = true then none
    else some ⟨record.address, (record.transactions.map AddressTransaction.amountSats).sum % 2 ^ 64⟩ := by
  have hsum : record.transactions.foldlM (fun total tx => b.addU64 total tx.amountSats) 0 =
      (record.transactions.map AddressTransaction.amountSats).foldlM b.addU64 0 := List.foldlM_map.symm
  unfold addressEntry
  rw [hsum, b.foldlM_addU64 _ (Nat.zero_le _), Nat.zero_add]
  split <;> rfl

/-- The sum over a record overflows, and the build checks it. -/
def SumPanics (b : Build) (map : Addresses) : Prop := b.overflowChecks = true ∧
  ∃ record ∈ listAddresses map, u64Max < (record.transactions.map AddressTransaction.amountSats).sum

instance (b : Build) (map : Addresses) : Decidable (SumPanics b map) := inferInstanceAs (Decidable (_ ∧ _))

theorem mapM_addressEntry (b : Build) (map : Addresses) :
    (listAddresses map).mapM (addressEntry b) = if SumPanics b map then none else some (addressesListed map) := by
  by_cases h : SumPanics b map
  · rw [if_pos h]
    obtain ⟨hchecks, record, hmem, hover⟩ := h
    exact (mapM_eq_none _ _).mpr ⟨record, hmem, (addressEntry_eq b record).trans (if_pos ⟨hover, hchecks⟩)⟩
  · rw [if_neg h]
    exact mapM_eq_some_map fun record hmem =>
      (addressEntry_eq b record).trans (if_neg fun hover => h ⟨hover.2, record, hmem, hover.1⟩)

theorem executeListAddresses_eq (b : Build) (map : Addresses) (method : Method) (limit offset : Option Nat) :
    executeListAddresses b map ⟨method, .listAddresses ⟨limit, offset⟩⟩ =
      if SumPanics b map then .panic else .ok (slice limit offset (addressesListed map)) := by
  simp only [executeListAddresses, mapM_addressEntry]
  by_cases h : SumPanics b map
  · rw [if_pos h, if_pos h]
  · rw [if_neg h, if_neg h]
    exact applyOffsetLimit_eq limit offset _

/-! ## Paging -/

/-- **The pages of the listings.** Without a limit all that passes the filters is listed. No listing loses or repeats
an entry, and none panics, but for the sums of the addresses. -/
theorem listings_paged (method : Method) :
    (∀ service (params : ListTransactionsRequest),
      Paged (fun limit offset => executeListTransactions service
        ⟨method, .listTransactions { params with limit, offset }⟩) ∧
      executeListTransactions service ⟨method, .listTransactions params⟩ ≠ .panic ∧
      executeListTransactions service ⟨method, .listTransactions { params with limit := none, offset := none }⟩ =
        .ok (transactionsListed (service.getD []) params)) ∧
    (∀ service (params : ListInvoicesRequest),
      Paged (fun limit offset => executeListInvoices service ⟨method, .listInvoices { params with limit, offset }⟩) ∧
      executeListInvoices service ⟨method, .listInvoices params⟩ ≠ .panic ∧
      executeListInvoices service ⟨method, .listInvoices { params with limit := none, offset := none }⟩ =
        .ok (invoicesListed (service.getD []) params)) ∧
    (∀ map (params : ListOffersRequest),
      Paged (fun limit offset => executeListOffers map ⟨method, .listOffers { params with limit, offset }⟩) ∧
      executeListOffers map ⟨method, .listOffers params⟩ ≠ .panic ∧
      executeListOffers map ⟨method, .listOffers { params with limit := none, offset := none }⟩ =
        .ok (offersListed map params)) ∧
    (∀ b map,
      Paged (fun limit offset => executeListAddresses b map ⟨method, .listAddresses ⟨limit, offset⟩⟩) ∧
      (∀ params, executeListAddresses b map ⟨method, .listAddresses params⟩ = .panic ↔ b.overflowChecks = true ∧
        ∃ record ∈ listAddresses map, u64Max < (record.transactions.map AddressTransaction.amountSats).sum) ∧
      (executeListAddresses b map ⟨method, .listAddresses ⟨none, none⟩⟩ = .panic ∨
        executeListAddresses b map ⟨method, .listAddresses ⟨none, none⟩⟩ = .ok (addressesListed map))) ∧
    ∀ history fromSecs untilSecs,
      (Paged fun limit offset => (.ok (getHistory history fromSecs untilSecs
        (limit.getD history.length) (offset.getD 0)) : Outcome NIP47Error (List ForwardingEntry))) ∧
      getHistory history fromSecs untilSecs history.length 0 = history.filter (settledWithin fromSecs untilSecs) := by
  refine ⟨fun service params => ?_, fun service params => ?_, fun map params => ?_, fun b map => ?_,
    fun history fromSecs untilSecs => ?_⟩
  · have h := fun limit offset => executeListTransactions_eq service method limit offset params
    exact ⟨paged_of_slice (.ok _) h, fun hp => (by cases (h params.limit params.offset).symm.trans hp), h none none⟩
  · have h := fun limit offset => executeListInvoices_eq service method limit offset params
    exact ⟨paged_of_slice (.ok _) h, fun hp => (by cases (h params.limit params.offset).symm.trans hp), h none none⟩
  · have h := fun limit offset => executeListOffers_eq method limit offset map params
    exact ⟨paged_of_slice (.ok _) h, fun hp => (by cases (h params.limit params.offset).symm.trans hp), h none none⟩
  · have h := executeListAddresses_eq b map method
    by_cases hpanics : SumPanics b map
    · simp only [if_pos hpanics] at h
      exact ⟨paged_of_slice .panic h, fun params => iff_of_true (h params.limit params.offset) hpanics, .inl (h none none)⟩
    · simp only [if_neg hpanics] at h
      refine ⟨paged_of_slice (.ok _) h, fun params => iff_of_false (fun hp => ?_) hpanics, .inr (h none none)⟩
      cases (h params.limit params.offset).symm.trans hp
  · have h := fun limit offset => getHistory_eq limit offset history fromSecs untilSecs
    exact ⟨paged_of_slice (.ok _) fun limit offset => congrArg Outcome.ok (h limit offset), h none none⟩

/-! ## Filters -/

/-- The time that an entry reports; none is reported for zero. -/
def LookupInvoiceResponse.timestamp (e : LookupInvoiceResponse) : Nat := e.createdAt.getD 0

/-- The fields that the entry reports are those that were asked for. -/
def Requested (fromSecs untilSecs : Option Nat) (unpaid : Option Bool) (transactionType : Option TransactionType)
    (paymentMethod : Option PaymentMethod) (e : LookupInvoiceResponse) : Prop :=
  (∀ t ∈ fromSecs, t ≤ e.timestamp) ∧ (∀ t ∈ untilSecs, e.timestamp ≤ t) ∧
    (∀ t ∈ transactionType, e.transactionType = some t) ∧ (∀ m ∈ paymentMethod, e.paymentMethod = some m) ∧
    (unpaid = some true ∨ e.state ≠ some .pending)

instance (fromSecs untilSecs : Option Nat) (unpaid : Option Bool) (transactionType : Option TransactionType)
    (paymentMethod : Option PaymentMethod) (e : LookupInvoiceResponse) :
    Decidable (Requested fromSecs untilSecs unpaid transactionType paymentMethod e) :=
  inferInstanceAs (Decidable (_ ∧ _ ∧ _ ∧ _ ∧ _))

/-- The payments newest first, in the order of the node where they are equally old. -/
structure NewestFirst (payments sorted : List ListedPayment) : Prop where
  perm : sorted.Perm payments
  newest : sorted.Pairwise fun a b => b.latestUpdateTimestamp ≤ a.latestUpdateTimestamp
  ties : ∀ t, (sorted.filter fun p => p.latestUpdateTimestamp = t) = payments.filter fun p => p.latestUpdateTimestamp = t

section
variable (p : ListedPayment)

theorem timestamp_response : (paymentDetailsToLookupInvoiceResponse p).timestamp = p.latestUpdateTimestamp := by
  unfold LookupInvoiceResponse.timestamp paymentDetailsToLookupInvoiceResponse
  by_cases h : 0 < p.latestUpdateTimestamp
  · simp [h]
  · simp [Nat.eq_zero_of_not_pos h]

theorem transactionType_response (t : TransactionType) :
    (paymentDetailsToLookupInvoiceResponse p).transactionType = some t ↔ p.direction = t.direction := by
  unfold paymentDetailsToLookupInvoiceResponse
  cases p.direction <;> cases t <;> simp [TransactionType.direction]

/-- The method is labelled as it is filtered. -/
theorem paymentMethod_response (m : PaymentMethod) :
    (paymentDetailsToLookupInvoiceResponse p).paymentMethod = some m ↔ m.covers p.kind = true := by
  show paymentMethodFromKind p.kind = some m ↔ _
  cases p.kind <;> cases m <;> simp [paymentMethodFromKind, PaymentMethod.covers]

theorem state_response : (paymentDetailsToLookupInvoiceResponse p).state = some .pending ↔ p.status = .pending := by
  unfold paymentDetailsToLookupInvoiceResponse
  cases p.status <;> simp

end

theorem dropped_unless (c x : Bool) : (if c then false else x) = true ↔ c = false ∧ x = true := by
  cases c <;> simp

theorem passesFilter_iff (fromSecs untilSecs : Option Nat) (unpaid : Option Bool)
    (transactionType : Option TransactionType) (paymentMethod : Option PaymentMethod) (p : ListedPayment) :
    passesFilter fromSecs untilSecs unpaid (transactionType.map TransactionType.direction) paymentMethod p = true ↔
      Requested fromSecs untilSecs unpaid transactionType paymentMethod (paymentDetailsToLookupInvoiceResponse p) := by
  have hunpaid : (!unpaid.getD false && decide (p.status = .pending)) = false ↔
      unpaid = some true ∨ ¬ p.status = .pending := by
    rcases unpaid with _ | _ | _ <;> simp
  unfold passesFilter Requested
  simp only [dropped_unless, and_true, hunpaid, Option.any_map, Option.any_eq_false, ne_eq, timestamp_response,
    transactionType_response, paymentMethod_response, state_response]
  refine and_congr ?_ (and_congr ?_ (and_congr ?_ (and_congr ?_ Iff.rfl)))
  · exact forall₂_congr fun t _ => by simp
  · exact forall₂_congr fun t _ => by simp
  · exact forall₂_congr fun t _ => by simp
  · exact forall₂_congr fun m _ => by simp

section
variable (payments : List ListedPayment)

theorem newer_trans (a b c : ListedPayment) (hab : decide (b.latestUpdateTimestamp ≤ a.latestUpdateTimestamp) = true)
    (hbc : decide (c.latestUpdateTimestamp ≤ b.latestUpdateTimestamp) = true) :
    decide (c.latestUpdateTimestamp ≤ a.latestUpdateTimestamp) = true := by
  rw [decide_eq_true_eq] at hab hbc ⊢
  exact hbc.trans hab

theorem newer_total (a b : ListedPayment) : (decide (b.latestUpdateTimestamp ≤ a.latestUpdateTimestamp) ||
    decide (a.latestUpdateTimestamp ≤ b.latestUpdateTimestamp)) = true := by
  rw [Bool.or_eq_true, decide_eq_true_eq, decide_eq_true_eq]
  exact le_total _ _

theorem newestFirst_filter (q : ListedPayment → Bool) :
    newestFirst (payments.filter q) = (newestFirst payments).filter q :=
  (filter_mergeSort newer_trans newer_total q payments).symm

theorem newestFirst_spec : NewestFirst payments (newestFirst payments) where
  perm := List.mergeSort_perm _ _
  newest := (List.pairwise_mergeSort newer_trans newer_total payments).imp of_decide_eq_true
  ties t := by
    refine filter_ties_mergeSort newer_trans newer_total (fun a b ha hb => ?_) payments
    rw [decide_eq_true_eq] at ha hb ⊢
    exact (hb.trans ha.symm).le

theorem executeListTransactions_filter (method : Method) (fromSecs untilSecs : Option Nat) (unpaid : Option Bool)
    (transactionType : Option TransactionType) (paymentMethod : Option PaymentMethod) :
    executeListTransactions (some payments)
        ⟨method, .listTransactions ⟨fromSecs, untilSecs, none, none, unpaid, transactionType, paymentMethod⟩⟩ =
      .ok (((newestFirst payments).map paymentDetailsToLookupInvoiceResponse).filter fun e =>
        Requested fromSecs untilSecs unpaid transactionType paymentMethod e) := by
  refine (executeListTransactions_eq (some payments) method none none
    ⟨fromSecs, untilSecs, none, none, unpaid, transactionType, paymentMethod⟩).trans ?_
  unfold slice transactionsListed
  rw [Option.getD_none, List.drop_zero, Option.getD_some, newestFirst_filter, List.filter_map]
  have hpasses : ∀ p ∈ newestFirst payments, passesFilter fromSecs untilSecs unpaid
      (transactionType.map TransactionType.direction) paymentMethod p =
        ((fun e => decide (Requested fromSecs untilSecs unpaid transactionType paymentMethod e)) ∘
          paymentDetailsToLookupInvoiceResponse) p := by
    intro p _
    rw [Bool.eq_iff_iff, passesFilter_iff]
    exact decide_eq_true_iff.symm
  rw [List.filter_congr hpasses]

end

/-- **The filters agree with the fields that are reported.** -/
theorem list_transactions_filters (payments : List ListedPayment) (method : Method) : ∃ sorted,
    NewestFirst payments sorted ∧
    executeListTransactions (some payments)
        ⟨method, .listTransactions ⟨none, none, none, none, some true, none, none⟩⟩ =
      .ok (sorted.map paymentDetailsToLookupInvoiceResponse) ∧
    ∀ fromSecs untilSecs unpaid transactionType paymentMethod, executeListTransactions (some payments)
        ⟨method, .listTransactions ⟨fromSecs, untilSecs, none, none, unpaid, transactionType, paymentMethod⟩⟩ =
      .ok ((sorted.map paymentDetailsToLookupInvoiceResponse).filter fun e =>
        Requested fromSecs untilSecs unpaid transactionType paymentMethod e) := by
  refine ⟨newestFirst payments, newestFirst_spec payments, ?_, executeListTransactions_filter payments method⟩
  rw [executeListTransactions_filter, List.filter_eq_self.mpr fun e _ => ?_]
  simp [Requested]

end LdkController
