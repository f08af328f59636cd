import Line.Console.Reconcile

/-!
# What the checks of a recovered console say

The checks before a private state is restored, each read as what it establishes: the book
in the state opens the public commitment (`Opens`), an effect is public (`Shows`), and what
is restored is the snapshot of the operation, completed with its transaction.

What completing leaves of a snapshot is said property by property. Four lists are brought into
being where they are missing, one of three gets the transaction in the entry that the
operation is about, and nothing else changes (`Completed`). A state that is published gets the
report mark on its quotes as well. A state whose line has been replaced is retired: its book is
taken out, and its key is kept among the historical ones (`Retired`). Every other property of
the snapshot is in the restored state as it was, which is why the book that the checks opened is
the book that is restored.
-/

namespace Line.Console

open Vault Journal Checked

/-! ## Comparisons -/

theorem allOf_true {xs : List (Result Bool)} (h : allOf xs = .ok true) :
    ∀ x ∈ xs, x = .ok true := by
  induction xs with
  | nil =>
      intro x hx
      cases hx
  | cons y ys ih =>
      simp only [allOf, bind_ok_iff] at h
      obtain ⟨b, hy, hrest⟩ := h
      cases b with
      | false => cases hrest
      | true =>
          intro x hx
          rcases List.mem_cons.mp hx with rfl | hx
          · exact hy
          · exact ih hrest x hx

theorem allOf_cons {x : Result Bool} {xs : List (Result Bool)} (hx : x = .ok true)
    (h : allOf xs = .ok true) : allOf (x :: xs) = .ok true := by
  rw [allOf, hx]
  exact h

/-- Both are the same word, or both are null. -/
def SameWord (a b : Value) : Prop :=
  ∃ w, normalizeCommitment a = .ok w ∧ normalizeCommitment b = .ok w

theorem sameCommitment_true {a b : Value} (h : sameCommitment a b = .ok true) : SameWord a b := by
  simp only [sameCommitment, bind_ok_iff, pure_ok_iff, beq_iff_eq] at h
  obtain ⟨w, ha, _, hb, rfl⟩ := h
  exact ⟨w, ha, hb⟩

theorem decimal_ok {v : Value} {s : String} (h : decimal v = .ok s) :
    v = .string s ∧ validGeneration s = true := by
  unfold decimal at h
  split at h
  · split at h
    · next hs =>
        cases h
        exact ⟨rfl, hs⟩
    · cases h
  · cases h

theorem optional_eq {a : Option String} {s : String} (h : Value.optional a = .string s) :
    a = some s := by
  cases a with
  | none => cases h
  | some t =>
      cases h
      rfl

theorem sameDecimal_true {a : Option String} {s : String}
    (h : sameDecimal (.optional a) (.string s) = .ok true) : a = some s := by
  simp only [sameDecimal, bind_ok_iff, pure_ok_iff, beq_iff_eq] at h
  obtain ⟨_, ha, _, hb, rfl⟩ := h
  cases (decimal_ok hb).1
  exact optional_eq (decimal_ok ha).1

theorem safeNatural_ok {message : String} {v : Value} {n : ℕ}
    (h : safeNatural message v = .ok n) : v.safeNat = some n := by
  unfold safeNatural at h
  split at h
  · next m hm =>
      cases h
      exact hm
  · cases h

theorem sameNumber_true {a b : Value} (h : sameNumber a b = .ok true) :
    ∃ n, a.safeNat = some n ∧ b = .string (toString n) := by
  simp only [sameNumber, bind_ok_iff, pure_ok_iff, beq_iff_eq] at h
  obtain ⟨n, ha, _, hb, rfl⟩ := h
  exact ⟨n, safeNatural_ok ha, (decimal_ok hb).1⟩

/-- A safe integer is a `Uint<64>` as it stands. -/
theorem toU64_val {v : Value} {n : ℕ} (h : v.safeNat = some n) : (toU64 n).val = n := by
  have hle : n ≤ Number.maxSafe := Value.safeNat_le h
  exact Nat.mod_eq_of_lt (lt_of_le_of_lt hle (by decide))

theorem bigInt_ok {s : String} {n : ℕ} (h : bigInt s = .ok n) : n = Decimal.read s.toList := by
  unfold bigInt at h
  split at h
  · cases h
    rfl
  · cases h

/-! ## Effects -/

/-- The note is expired, and its cost allocated as the effect says. -/
structure Compensated (note : NoteEvidence) (refundCommitment : String) (cashRefundOwed : Bool) :
    Prop where
  cancelled : note.cancelled = some true
  unredeemed : note.redeemed ≠ some true
  allocated : note.compensationAllocated = some true
  refund : SameWord (.optional note.refundCommitment) (.string refundCommitment)
  owed : note.cashRefundOwed = some cashRefundOwed

/-- The book that a compensation left: there is a later generation, or it is the public one. -/
def LeftBook (effect : JournalExpectedEffect) (evidence : RuntimeRecoveryEvidence) :
    Option String → Prop
  | none => Decimal.read effect.lineGeneration.toList < Decimal.read evidence.lineGeneration.toList
  | some lineCommitment => SameWord (.string lineCommitment) (nullable evidence.lineCommitment)

/-- The effect happened to the note. -/
def NoteShows (effect : JournalExpectedEffect) (note : NoteEvidence)
    (evidence : RuntimeRecoveryEvidence) : Prop :=
  match effect.effect with
  | .quotePresent => False
  | .noteRedeemed => note.redeemed = some true
  | .noteCancelled => note.cancelled = some true
  | .noteCompensationAllocated refundCommitment cashRefundOwed lineCommitment =>
    Compensated note refundCommitment cashRefundOwed ∧ LeftBook effect evidence lineCommitment
  | .noteRefundAcknowledged refundCommitment paymentNullifier =>
    Compensated note refundCommitment true ∧ note.refundAcknowledged = some true ∧
      SameWord (.optional note.refundPaymentNullifier) (.string paymentNullifier) ∧
      ∃ n, evidence.nullifier = some n ∧ n.present = true ∧
        SameWord (.string n.value) (.string paymentNullifier)

/-- The ledger shows the effect, on the quote or note and of the generation it was recorded for. -/
def Shows (effect : JournalExpectedEffect) (evidence : RuntimeRecoveryEvidence) : Prop :=
  SameWord (.string effect.contractDomain) (.string evidence.contractDomain) ∧
    match effect.effect with
    | .quotePresent => ∃ quote, evidence.quote = some quote ∧ quote.present = true ∧
        SameWord (.string quote.commitment) (.string effect.targetCommitment) ∧
        quote.lineGeneration = some effect.lineGeneration
    | _ => ∃ note, evidence.note = some note ∧ note.present = true ∧
        SameWord (.string note.commitment) (.string effect.targetCommitment) ∧
        note.lineGeneration = some effect.lineGeneration ∧ NoteShows effect note evidence

theorem compensated_true {note : NoteEvidence} {refundCommitment : String} {cashRefundOwed : Bool}
    (h : compensated note refundCommitment cashRefundOwed = .ok true) :
    Compensated note refundCommitment cashRefundOwed := by
  have h := allOf_true h
  simp only [List.forall_mem_cons, pure_ok_iff, beq_iff_eq, Bool.not_eq_true',
    Option.getD_eq_iff] at h
  obtain ⟨hcancelled, hredeemed, hallocated, hrefund, howed, -⟩ := h
  refine ⟨by simpa using hcancelled, ?_, hallocated, sameCommitment_true hrefund, howed⟩
  intro hyes
  simp [hyes] at hredeemed

theorem noteShows_true {effect : JournalExpectedEffect} {note : NoteEvidence}
    {evidence : RuntimeRecoveryEvidence} (h : noteShows effect note evidence = .ok true) :
    NoteShows effect note evidence := by
  unfold noteShows at h
  unfold NoteShows
  cases heff : effect.effect with
  | quotePresent =>
      rw [heff] at h
      cases h
  | noteRedeemed =>
      rw [heff] at h
      simpa using h
  | noteCancelled =>
      rw [heff] at h
      simpa using h
  -- an allocation shows the refund, and either the new book or that the line went on
  | noteCompensationAllocated refundCommitment cashRefundOwed lineCommitment =>
      rw [heff] at h
      have h := allOf_true h
      simp only [List.forall_mem_cons] at h
      obtain ⟨hcomp, -, hbook, -⟩ := h
      refine ⟨compensated_true hcomp, ?_⟩
      cases lineCommitment with
      | none =>
          simp only [bind_ok_iff, pure_ok_iff, decide_eq_true_eq] at hbook
          obtain ⟨_, hg, _, hc, _, hbg, _, hbc, hlt⟩ := hbook
          cases (decimal_ok hg).1
          cases (decimal_ok hc).1
          rw [LeftBook, ← bigInt_ok hbg, ← bigInt_ok hbc]
          exact hlt
      | some lineCommitment => exact sameCommitment_true hbook
  -- an acknowledgement shows the nullifier, of the payment that was expected
  | noteRefundAcknowledged refundCommitment paymentNullifier =>
      rw [heff] at h
      have h := allOf_true h
      simp only [List.forall_mem_cons, pure_ok_iff, beq_iff_eq, Option.any_eq_true] at h
      obtain ⟨hcomp, hack, ⟨n, hn, hpresent⟩, hpayment, hvalue, -⟩ := h
      rw [hn] at hvalue
      exact ⟨compensated_true hcomp, hack, sameCommitment_true hpayment, n, hn, hpresent,
        sameCommitment_true hvalue⟩

/-- **An effect that is found is public.** -/
theorem effectMatches_true {operation : JournalOperation} {evidence : RuntimeRecoveryEvidence}
    (h : effectMatches operation evidence = .ok true) :
    ∃ effect, operation.expectedEffect = some effect ∧ Shows effect evidence := by
  unfold effectMatches at h
  cases heff : operation.expectedEffect with
  | none =>
      rw [heff] at h
      cases h
  | some effect =>
      rw [heff] at h
      have h := allOf_true h
      simp only [List.forall_mem_cons] at h
      obtain ⟨-, hdomain, hshown, -⟩ := h
      refine ⟨effect, rfl, sameCommitment_true hdomain, ?_⟩
      cases hkind : effect.effect with
      | quotePresent =>
          rw [hkind] at hshown
          cases hquote : evidence.quote with
          | none =>
              rw [hquote] at hshown
              cases hshown
          | some quote =>
              rw [hquote] at hshown
              have hshown := allOf_true hshown
              simp only [List.forall_mem_cons, pure_ok_iff] at hshown
              obtain ⟨hpresent, htarget, hgen, -⟩ := hshown
              exact ⟨quote, rfl, hpresent, sameCommitment_true htarget, sameDecimal_true hgen⟩
      | noteRedeemed | noteCancelled | noteCompensationAllocated | noteRefundAcknowledged =>
          rw [hkind] at hshown
          cases hnote : evidence.note with
          | none =>
              rw [hnote] at hshown
              cases hshown
          | some note =>
              rw [hnote] at hshown
              have hshown := allOf_true hshown
              simp only [List.forall_mem_cons, pure_ok_iff] at hshown
              obtain ⟨hpresent, htarget, hgen, hnoteShows, -⟩ := hshown
              exact ⟨note, rfl, hpresent, sameCommitment_true htarget, sameDecimal_true hgen,
                noteShows_true hnoteShows⟩

/-! ## Opening a book -/

section Hashes

variable [Line.Compact Bytes]

/-- The limit, debt, epoch and salt of the record, with its owner's key, hash to the commitment;
the numbers are those of the record. -/
def OpensTo (record domain : Value) (limit outstanding commitment identity : String) : Prop :=
  ∃ (secret d salt : Bytes) (L B E : Line.U64),
    hexToBytes (record.get "agentSecret") = .ok secret ∧ hexToBytes domain = .ok d ∧
    (record.get limit).safeNat = some L.val ∧ (record.get outstanding).safeNat = some B.val ∧
    (record.get "epoch").safeNat = some E.val ∧ hexToBytes (record.get "salt") = .ok salt ∧
    commitment = toHex (Line.Engine.lineStateCommit d (Line.Engine.agentId secret) L B E salt) ∧
    identity = toHex (Line.Engine.agentId secret)

/-- The commitment and the owner are those that the ledger shows. -/
def Public (evidence : RuntimeRecoveryEvidence) (commitment identity : String) : Prop :=
  normalizeCommitment (nullable evidence.lineCommitment) = .ok (some commitment) ∧
    normalizeCommitment (nullable evidence.identityCommitment) = .ok (some identity)

/-- A line record of the instance: its book opens the public commitment, of the observed
generation and under the observed fee policy. -/
structure OpensLine (line : Value) (runtime : Runtime) (evidence : RuntimeRecoveryEvidence) :
    Prop where
  network : (line.get "networkId").isText runtime.networkId = true
  address : (line.get "contractAddress").strictEq (nullable runtime.contractAddress) = true
  domain : SameWord (line.get "contractDomain") (.string evidence.contractDomain)
  generation : ∃ n, (line.get "lineGeneration").safeNat = some n ∧
    evidence.lineGeneration = toString n
  feeFlat : ∃ n, (line.get "feeFlat").safeNat = some n ∧ evidence.feeFlat = some (toString n)
  feeBps : ∃ n ≤ 10000, (line.get "feeBps").safeNat = some n ∧
    evidence.feeBps = some (toString n)
  book : ∃ commitment identity, Public evidence commitment identity ∧
    OpensTo line (line.get "contractDomain") "limit" "outstanding" commitment identity

/-- An agent record, with the same names for the same numbers as `openingMatches`. -/
def OpensRecord (record line : Value) (evidence : RuntimeRecoveryEvidence) : Prop :=
  ∃ commitment identity, Public evidence commitment identity ∧
    OpensTo record (line.get "contractDomain") "L" "B" commitment identity

/-- The ledger shows no line. -/
def NoLine (evidence : RuntimeRecoveryEvidence) : Prop :=
  evidence.lineGeneration = "0" ∨
    normalizeCommitment (nullable evidence.lineCommitment) = .ok none ∨
    normalizeCommitment (nullable evidence.lineCommitment) = .ok (some noCommitment)

/-- The book of a state, if it has one, is the public book. -/
structure Opens (state : Value) (runtime : Runtime) (evidence : RuntimeRecoveryEvidence) :
    Prop where
  line : (state.get "agentLineRecord").truthy = true →
    OpensLine (state.get "agentLineRecord") runtime evidence
  record : (state.get "agentLineRecord").truthy = true → (state.get "agentRecord").truthy = true →
    OpensRecord (state.get "agentRecord") (state.get "agentLineRecord") evidence
  none : (state.get "agentLineRecord").truthy = false →
    NoLine evidence ∨ state.get "agentRecord" = .null

theorem openedCommitment_ok {record domain : Value} {limit outstanding commitment : String}
    (h : openedCommitment record domain limit outstanding = .ok commitment) :
    ∃ secret, hexToBytes (record.get "agentSecret") = .ok secret ∧
      OpensTo record domain limit outstanding commitment (toHex (Line.Engine.agentId secret)) := by
  simp only [openedCommitment, safeUnits, bind_ok_iff, pure_ok_iff] at h
  obtain ⟨secret, hsecret, d, hd, L, hL, B, hB, E, hE, salt, hsalt, rfl⟩ := h
  have hL := safeNatural_ok hL
  have hB := safeNatural_ok hB
  have hE := safeNatural_ok hE
  refine ⟨secret, hsecret, secret, d, salt, toU64 L, toU64 B, toU64 E, hsecret, hd, ?_, ?_, ?_,
    hsalt, rfl, rfl⟩
  · rw [toU64_val hL, hL]
  · rw [toU64_val hB, hB]
  · rw [toU64_val hE, hE]

/-- The opening of a line record that was checked. -/
theorem checkLine_ok {line : Value} (h : checkLine line = .ok ()) : ∃ commitment identity,
    normalizeCommitment (line.get "lineCommitment") = .ok (some commitment) ∧
    normalizeCommitment (line.get "identityCommitment") = .ok (some identity) ∧
    OpensTo line (line.get "contractDomain") "limit" "outstanding" commitment identity := by
  simp only [checkLine, bind_ok_iff, require_ok_iff, Bool.and_eq_true, beq_iff_eq] at h
  obtain ⟨computed, hcomputed, c, hc, secret, hsecret, i, hi, rfl, rfl⟩ := h
  obtain ⟨secret', hsecret', hopens⟩ := openedCommitment_ok hcomputed
  rw [hsecret] at hsecret'
  cases hsecret'
  exact ⟨_, _, hc, hi, hopens⟩

theorem lineInstance_true {line : Value} {evidence : RuntimeRecoveryEvidence} {runtime : Runtime}
    (h : lineInstance line evidence runtime = .ok true) (hf : feePolicy line evidence = .ok true)
    (hc : checkLine line = .ok ()) : OpensLine line runtime evidence := by
  have h := allOf_true h
  have hf := allOf_true hf
  simp only [List.forall_mem_cons, pure_ok_iff, map_ok_iff, decide_eq_true_eq] at h hf
  obtain ⟨hnet, haddr, hdomain, hgen, hid, hcom, -⟩ := h
  obtain ⟨hflat, hbps, ⟨bps, hsafe, hle⟩, -⟩ := hf
  obtain ⟨commitment, identity, hcommitment, hidentity, hopens⟩ := checkLine_ok hc
  obtain ⟨_, hc₁, hc₂⟩ := sameCommitment_true hcom
  obtain ⟨_, hi₁, hi₂⟩ := sameCommitment_true hid
  rw [hcommitment] at hc₁
  rw [hidentity] at hi₁
  cases hc₁
  cases hi₁
  obtain ⟨n, hn, hgen⟩ := sameNumber_true hgen
  obtain ⟨flat, hflat, hflat'⟩ := sameNumber_true hflat
  obtain ⟨rate, hrate, hrate'⟩ := sameNumber_true hbps
  have hbound := safeNatural_ok hsafe
  rw [hrate] at hbound
  cases hbound
  exact ⟨hnet, haddr, sameCommitment_true hdomain, ⟨n, hn, Value.string.inj hgen⟩,
    ⟨flat, hflat, optional_eq hflat'⟩, ⟨_, hle, hrate, optional_eq hrate'⟩, commitment, identity,
    ⟨hc₂, hi₂⟩, hopens⟩

theorem recordOpens_true {record line : Value} {evidence : RuntimeRecoveryEvidence}
    (h : recordOpens record line evidence = .ok true) : OpensRecord record line evidence := by
  simp only [recordOpens, bind_ok_iff] at h
  obtain ⟨secret, hsecret, commitment, hcommitment, publicCommitment, hpublic, h⟩ := h
  have h := allOf_true h
  simp only [List.forall_mem_cons, pure_ok_iff, map_ok_iff, beq_iff_eq] at h
  obtain ⟨rfl, ⟨identity, hidentity, rfl⟩, -⟩ := h
  obtain ⟨secret', hsecret', hopens⟩ := openedCommitment_ok hcommitment
  rw [hsecret] at hsecret'
  cases hsecret'
  exact ⟨_, _, ⟨hpublic, hidentity⟩, hopens⟩

/-- **The book that is let through is the public book.** -/
theorem openingMatches_true {state : Value} {evidence : RuntimeRecoveryEvidence}
    {runtime : Runtime} {allowMissingBook : Bool}
    (h : openingMatches state evidence runtime allowMissingBook = .ok true)
    (hc : (state.get "agentLineRecord").truthy = true →
      checkLine (state.get "agentLineRecord") = .ok ()) : Opens state runtime evidence := by
  simp only [openingMatches, bind_ok_iff] at h
  obtain ⟨publicCommitment, hpublic, h⟩ := h
  cases hline : (state.get "agentLineRecord").truthy with
  | true =>
      rw [hline, if_pos rfl] at h
      have h := allOf_true h
      simp only [List.forall_mem_cons] at h
      obtain ⟨hinstance, hfees, hrecord, -⟩ := h
      refine ⟨fun _ => lineInstance_true hinstance hfees (hc hline), fun _ hr => ?_, ?_⟩
      · rw [if_pos hr] at hrecord
        exact recordOpens_true hrecord
      · intro hno
        cases hline.symm.trans hno
  | false =>
      rw [hline, if_neg Bool.false_ne_true, pure_ok_iff, Bool.or_eq_true, Bool.and_eq_true] at h
      refine ⟨fun hyes => ?_, fun hyes => ?_, fun _ => ?_⟩
      · cases hline.symm.trans hyes
      · cases hline.symm.trans hyes
      · rcases h with hinactive | ⟨-, hnull⟩
        · left
          simp only [active, Bool.not_eq_true', Bool.and_eq_false_iff, bne_eq_false_iff_eq]
            at hinactive
          rcases hinactive with (hgen | hnone) | hzero
          · exact .inl hgen
          · rw [Option.isSome_eq_false_iff, Option.isNone_iff_eq_none] at hnone
            exact .inr (.inl (hnone ▸ hpublic))
          · exact .inr (.inr (hzero ▸ hpublic))
        · right
          unfold Value.isNull at hnull
          split at hnull
          · assumption
          · cases hnull

/-! ## Recovered states -/

/-- The lists that a recovered state may have otherwise than its snapshot. -/
def completed : List String := ["drawNotes", "repayments", "refunds", "historicalAgentKeys"]

/-- A list of a state, which may leave it out. -/
def listed (state : Value) (list : String) : Value := (state.get list).orElse (.array [])

/-- Where the transaction of an operation is noted: the list, the property that finds the item in
it, and the property that is written. -/
def noting : OperationKind → Option (String × String × String)
  | .draw => some ("drawNotes", "quoteCommitment", "drawTransactionId")
  | .redeemDraw => some ("drawNotes", "noteCommitment", "redemptionTransactionId")
  | .acknowledgeRepayment => some ("repayments", "paymentReference", "transactionId")
  | .cancelOrExpireNote => some ("refunds", "noteCommitment", "transactionId")
  | _ => none

/-- What an operation is about, in the arguments of its intent. -/
def subjectOf (kind : OperationKind) (args : Value) : Result Value := do
  let params ← args.index0
  match kind with
  | .draw => params.access "quoteCommit"
  | .redeemDraw => params.access "noteCommit"
  | .acknowledgeRepayment => params.access "paymentRef"
  | _ => pure params

/-- An item with a property written in it, if it is the one that is looked for. -/
def noted (key field : String) (target v item : Value) : Value :=
  if (item.get key).strictEq target then item.spread field v else item

/-- The list with the transaction in the items that the operation is about, and nothing else of it
changed. -/
inductive Noted (operation : JournalOperation) (args : Value) (list : String) (items : Value) :
    Value → Prop
  | kept : ((transactionOf operation).truthy = true → args.truthy = true →
      ∀ key field, noting operation.kind ≠ some (list, key, field)) →
      Noted operation args list items items
  | transaction {key field : String} {target : Value} :
      (transactionOf operation).truthy = true → args.truthy = true →
      noting operation.kind = some (list, key, field) →
      subjectOf operation.kind args = .ok target →
      Noted operation args list items
        (.array (items.itemsOf.map (noted key field target (transactionOf operation))))

/-- The private state of a snapshot, completed: lists that it left out are empty, and the
transaction of the operation is noted. -/
structure Completed (operation : JournalOperation) (snapshot state : Value) : Prop where
  kept : ∀ key ∉ completed, state.get key = (snapshot.get "privateState").get key
  keys : state.get "historicalAgentKeys"
    = listed (snapshot.get "privateState") "historicalAgentKeys"
  lists : ∀ list ∈ ["drawNotes", "repayments", "refunds"],
    Noted operation ((snapshot.get "intent").get "arguments") list
      (listed (snapshot.get "privateState") list) (state.get list)

omit [Line.Compact Bytes] in
theorem access_ok {item found : Value} {key : String} (h : item.access key = .ok found) :
    found = item.get key := by
  cases item <;> cases h <;> rfl

omit [Line.Compact Bytes] in
theorem annotate_ok {list key field : String} {target v state state' : Value}
    (h : annotate list key field target v state = .ok state') :
    state' = state.assign list
      (.array ((state.get list).itemsOf.map (noted key field target v))) := by
  simp only [annotate, bind_ok_iff, pure_ok_iff] at h
  obtain ⟨items, hitems, rfl⟩ := h
  rw [map_of_mapM_ok (fun item item' hitem => ?_) hitems]
  simp only [bind_ok_iff, pure_ok_iff] at hitem
  obtain ⟨found, hfound, rfl⟩ := hitem
  rw [access_ok hfound]
  rfl

omit [Line.Compact Bytes] in
/-- The four kinds that note a transaction do it in one way. -/
theorem annotateTransaction_eq (operation : JournalOperation) (args transaction state : Value) :
    annotateTransaction operation args transaction state =
      match noting operation.kind with
      | none => pure state
      | some (list, key, field) => subjectOf operation.kind args >>= fun target =>
          annotate list key field target transaction state := by
  unfold annotateTransaction subjectOf
  cases operation.kind <;> first | rfl | exact (bind_assoc _ _ _).symm | skip
  cases args.index0 <;> rfl

omit [Line.Compact Bytes] in
theorem snapshotState_ok {snapshot state : Value} {runtime : Runtime} {domain : String}
    (h : snapshotState snapshot runtime domain = .ok state) :
    (∀ key ∉ completed, state.get key = (snapshot.get "privateState").get key) ∧
      (∀ list ∈ completed, state.get list = listed (snapshot.get "privateState") list) ∧
      (state.get "merchantQuotes").isArray = true := by
  simp only [snapshotState, bind_ok_iff, pure_ok_iff, require_ok_iff, exists_const,
    Bool.and_eq_true] at h
  obtain ⟨_, -, -, ⟨⟨⟨-, hquotes⟩, hnotes⟩, hrepayments⟩, -, rfl⟩ := h
  generalize snapshot.get "privateState" = base at *
  have harray : ∀ {list : String}, (base.get list).isArray = true →
      base.get list = listed base list := by
    intro list hlist
    unfold listed
    cases hv : base.get list <;> rw [hv] at hlist <;> first | rfl | cases hlist
  have hobject : base.get "merchantQuotes" ≠ .undefined := by
    intro hno
    rw [hno] at hquotes
    cases hquotes
  have hkey : ∀ key ∉ ["refunds", "historicalAgentKeys"],
      ((base.assign "refunds" (listed base "refunds")).assign "historicalAgentKeys"
        (((base.assign "refunds" (listed base "refunds")).get "historicalAgentKeys").orElse
          (.array []))).get key = base.get key := by
    intro key hkey
    simp only [List.mem_cons, List.not_mem_nil, or_false, not_or] at hkey
    rw [Value.get_assign_ne hkey.2, Value.get_assign_ne hkey.1]
  refine ⟨fun key hnew => hkey key fun hmem => hnew ?_, fun list hlist => ?_, ?_⟩
  · exact List.mem_append_right ["drawNotes", "repayments"] hmem
  · simp only [completed, List.mem_cons, List.not_mem_nil, or_false] at hlist
    rcases hlist with rfl | rfl | rfl | rfl
    · exact (hkey _ (by decide)).trans (harray hnotes)
    · exact (hkey _ (by decide)).trans (harray hrepayments)
    · exact (Value.get_assign_ne (by decide) _ _).trans (Value.get_assign hobject _)
    · rw [Value.get_assign (p := "merchantQuotes"), Value.get_assign_ne (by decide)]
      · rfl
      · rwa [Value.get_assign_ne (by decide)]
  · exact (congrArg Value.isArray (hkey _ (by decide))).trans hquotes

omit [Line.Compact Bytes] in
/-- What the transaction is noted in is a list that is completed, and no other is touched. -/
theorem annotated_completed {operation : JournalOperation} {snapshot base state : Value}
    (hkept : ∀ key ∉ completed, base.get key = (snapshot.get "privateState").get key)
    (hlists : ∀ list ∈ completed, base.get list = listed (snapshot.get "privateState") list)
    (hobject : (base.get "merchantQuotes").isArray = true)
    (h : (if (transactionOf operation).truthy && ((snapshot.get "intent").get "arguments").truthy
      then annotateTransaction operation ((snapshot.get "intent").get "arguments")
        (transactionOf operation) base else pure base) = .ok state) :
    Completed operation snapshot state := by
  have hnotes : ∀ list ∈ ["drawNotes", "repayments", "refunds"], list ∈ completed :=
    fun list hlist => List.mem_append_left ["historicalAgentKeys"] hlist
  -- an operation that notes no transaction leaves the lists as they are
  have hsame : state = base → ((transactionOf operation).truthy = true →
      ((snapshot.get "intent").get "arguments").truthy = true → noting operation.kind = none) →
      Completed operation snapshot state := by
    rintro rfl hnone
    refine ⟨hkept, hlists _ (by decide), fun list hlist => ?_⟩
    rw [hlists list (hnotes list hlist)]
    refine .kept fun ht ha key field => ?_
    rw [hnone ht ha]
    exact nofun
  split at h
  · next htruthy =>
      rw [Bool.and_eq_true] at htruthy
      rw [annotateTransaction_eq] at h
      cases hnoting : noting operation.kind with
      | none =>
          rw [hnoting] at h
          cases h
          exact hsame rfl fun _ _ => hnoting
      -- else it is noted in one list, by the key of its entry
      | some note =>
          obtain ⟨list, key, field⟩ := note
          rw [hnoting] at h
          simp only [bind_ok_iff] at h
          obtain ⟨target, htarget, h⟩ := h
          have hlist : list ∈ ["drawNotes", "repayments", "refunds"] := by
            cases hkind : operation.kind <;> rw [hkind] at hnoting <;> cases hnoting <;> decide
          have hundefined : base.get "merchantQuotes" ≠ .undefined := by
            intro hno
            rw [hno] at hobject
            cases hobject
          rw [annotate_ok h]
          refine ⟨fun k hk => ?_, ?_, fun other hother => ?_⟩
          · have hne : k ≠ list := by
              rintro rfl
              exact hk (hnotes k hlist)
            rw [Value.get_assign_ne hne]
            exact hkept k hk
          · have hne : "historicalAgentKeys" ≠ list := by
              rintro rfl
              exact absurd hlist (by decide)
            rw [Value.get_assign_ne hne]
            exact hlists _ (by decide)
          -- the list with the entry, and the other two
          · by_cases heq : other = list
            · subst heq
              rw [Value.get_assign hundefined, hlists other (hnotes other hother)]
              exact .transaction htruthy.1 htruthy.2 hnoting htarget
            · rw [Value.get_assign_ne heq, hlists other (hnotes other hother)]
              refine .kept fun _ _ key' field' hsome => heq ?_
              rw [hnoting] at hsome
              cases hsome
              rfl
  · next hno =>
      cases h
      refine hsame rfl fun ht ha => absurd ?_ hno
      rw [ht, ha]
      rfl

/-- **What is recovered is the snapshot of the operation**, completed, and its book opens. -/
theorem recoveredConsole_ok {operation : JournalOperation} {runtime : Runtime} {domain : String}
    {state : Value} (h : recoveredConsole operation runtime domain = .ok state) :
    ∃ snapshot, clone operation.candidateSnapshot = .ok snapshot ∧
      Completed operation snapshot state ∧ (state.get "merchantQuotes").isArray = true ∧
      ((state.get "agentLineRecord").truthy = true →
        checkLine (state.get "agentLineRecord") = .ok ()) := by
  simp only [recoveredConsole, bind_ok_iff] at h
  obtain ⟨snapshot, hclone, base, hbase, _, -, _, -, h⟩ := h
  obtain ⟨hkept, hlists, hobject⟩ := snapshotState_ok hbase
  have hline : "agentLineRecord" ∉ completed := by decide
  have hquotes : "merchantQuotes" ∉ completed := by decide
  -- what is noted leaves the book and the quotes as they were
  have hfinish : Completed operation snapshot state →
      ((base.get "agentLineRecord").truthy = true →
        checkLine (base.get "agentLineRecord") = .ok ()) →
      Completed operation snapshot state ∧ (state.get "merchantQuotes").isArray = true ∧
        ((state.get "agentLineRecord").truthy = true →
          checkLine (state.get "agentLineRecord") = .ok ()) := by
    intro hcompleted hchecked
    refine ⟨hcompleted, ?_, ?_⟩
    · rw [hcompleted.kept _ hquotes, ← hkept _ hquotes]
      exact hobject
    · rw [hcompleted.kept _ hline, ← hkept _ hline]
      exact hchecked
  obtain ⟨_, -, h⟩ := h
  refine ⟨snapshot, hclone, ?_⟩
  split at h
  · obtain ⟨_, hcheck, h⟩ := bind_ok_iff.mp h
    exact hfinish (annotated_completed hkept hlists hobject h) fun _ => hcheck
  · next hno =>
      exact hfinish (annotated_completed hkept hlists hobject h) fun hyes => absurd hyes hno

omit [Line.Compact Bytes] in
theorem annotate_proper {list key field : String} {target v state state' : Value}
    (hlist : arrayIndex list = none) (hfield : arrayIndex field = none) (hv : v.Proper)
    (hs : state.Proper) (h : annotate list key field target v state = .ok state') :
    state'.Proper := by
  simp only [annotate, bind_ok_iff, pure_ok_iff] at h
  obtain ⟨items, hitems, rfl⟩ := h
  refine Value.proper_assign hlist (properItems_iff.mpr fun item hitem => ?_) hs
  obtain ⟨x, hx, hannotated⟩ := mem_of_mapM_ok hitems item hitem
  have hproper := Value.proper_itemsOf (proper_get hs list) x hx
  simp only [bind_ok_iff, pure_ok_iff] at hannotated
  obtain ⟨_, -, rfl⟩ := hannotated
  split
  · exact Value.proper_spread hfield hv hproper
  · exact hproper

omit [Line.Compact Bytes] in
theorem annotateTransaction_proper {operation : JournalOperation}
    {args transaction state state' : Value} (ht : transaction.Proper) (hs : state.Proper)
    (h : annotateTransaction operation args transaction state = .ok state') : state'.Proper := by
  unfold annotateTransaction at h
  split at h
  · simp only [bind_ok_iff] at h
    obtain ⟨_, -, _, -, h⟩ := h
    exact annotate_proper (by decide) (by decide) ht hs h
  · simp only [bind_ok_iff] at h
    obtain ⟨_, -, _, -, h⟩ := h
    exact annotate_proper (by decide) (by decide) ht hs h
  · simp only [bind_ok_iff] at h
    obtain ⟨_, -, _, -, h⟩ := h
    exact annotate_proper (by decide) (by decide) ht hs h
  · simp only [bind_ok_iff] at h
    obtain ⟨_, -, h⟩ := h
    exact annotate_proper (by decide) (by decide) ht hs h
  · cases h
    exact hs

/-- A recovered state can be cloned: it is a value of the language, if the receipt is. -/
theorem recoveredConsole_proper {operation : JournalOperation} {runtime : Runtime}
    {domain : String} {state : Value} (hr : ∀ r ∈ operation.receipt, (r.get "txHash").Proper)
    (h : recoveredConsole operation runtime domain = .ok state) : state.Proper := by
  simp only [recoveredConsole, bind_ok_iff] at h
  obtain ⟨snapshot, hclone, base, hbase, _, -, _, -, _, -, h⟩ := h
  have hsnapshot := clone_proper hclone
  -- a transaction is the receipt's, or the one the operation names
  have htransaction : (transactionOf operation).Proper := by
    have hnullable := (nullable_shape operation.transactionId).1
    unfold transactionOf
    refine Value.proper_orElse (Value.proper_orElse ?_ hnullable) trivial
    cases hreceipt : operation.receipt with
    | none => exact trivial
    | some r => exact hr r hreceipt
  -- completing the snapshot writes lists that were there, or are empty
  have hproper : base.Proper := by
    simp only [snapshotState, bind_ok_iff, pure_ok_iff] at hbase
    obtain ⟨_, -, _, -, _, -, _, -, rfl⟩ := hbase
    have hstate := proper_get hsnapshot "privateState"
    have hempty : (Value.array []).Proper := by simp [Value.Proper, properItems]
    have hkey : arrayIndex "refunds" = none := by decide
    have hrefunds := Value.proper_assign hkey
      (Value.proper_orElse (proper_get hstate "refunds") hempty) hstate
    exact Value.proper_assign (by decide)
      (Value.proper_orElse (proper_get hrefunds "historicalAgentKeys") hempty) hrefunds
  -- and noting the transaction writes that
  have hannotated : ∀ {args transaction : Value}, transaction.Proper →
      (if transaction.truthy && args.truthy then
        annotateTransaction operation args transaction base else pure base) = .ok state →
      state.Proper := by
    intro args transaction ht ha
    split at ha
    · exact annotateTransaction_proper ht hproper ha
    · cases ha
      exact hproper
  split at h
  · obtain ⟨_, -, h⟩ := bind_ok_iff.mp h
    exact hannotated htransaction h
  · exact hannotated htransaction h

/-! ## Retiring a book -/

/-- The key of a book whose owner is found among the historical keys. -/
def KeyOf (identity : String) (key : Value) : Prop :=
  normalizeCommitment (key.get "identityCommitment") = .ok (some identity)

/-- A state without its book, which is of an earlier generation: the owner's key is kept with the
historical ones, if it is not there yet, and nothing else of the state changed. -/
structure Retired (evidence : RuntimeRecoveryEvidence) (base state : Value) : Prop where
  earlier : ∃ generation, ((base.get "agentLineRecord").get "lineGeneration").safeNat
    = some generation ∧ generation < Decimal.read evidence.lineGeneration.toList
  line : state.get "agentLineRecord" = .null
  record : state.get "agentRecord" = .null
  keys : ∃ identity, identityOf ((base.get "agentLineRecord").get "agentSecret") = .ok identity ∧
    ((∃ key ∈ (listed base "historicalAgentKeys").itemsOf, KeyOf identity key) ∧
        state.get "historicalAgentKeys" = .array (listed base "historicalAgentKeys").itemsOf ∨
      state.get "historicalAgentKeys" = .array ((listed base "historicalAgentKeys").itemsOf ++
        [.object [("identityCommitment", .string identity),
          ("agentSecret", (base.get "agentLineRecord").get "agentSecret")]]))
  kept : ∀ key ∉ ["agentLineRecord", "agentRecord", "historicalAgentKeys"],
    state.get key = base.get key

/-- **A retired state holds no book**, and nothing else of it changed but the historical keys. -/
theorem retireForHistoricalNote_ok {state retired : Value} {target : String}
    {evidence : RuntimeRecoveryEvidence} {runtime : Runtime} (hs : state.Proper)
    (h : retireForHistoricalNote state target evidence runtime = .ok retired) :
    Retired evidence state retired := by
  simp only [retireForHistoricalNote, bind_ok_iff, require_ok_iff, exists_const,
    Bool.and_eq_true] at h
  obtain ⟨_, -, note, -, ⟨-, hline⟩, same, hsame, rfl, _, -, _, -, _, -, -, h⟩ := h
  -- the generation of the book is below the one on the ledger
  have hold := allOf_true (allOf_true hsame _ (List.mem_cons_of_mem _ List.mem_cons_self))
  simp only [List.forall_mem_cons, bind_ok_iff, pure_ok_iff, decide_eq_true_eq] at hold
  obtain ⟨-, -, -, ⟨generation, hgen, _, hcur, current, hbig, hlt⟩, -⟩ := hold
  cases (decimal_ok hcur).1
  -- the source reads both generations a second time
  simp only [retireHistoricalBook, bind_ok_iff, clone_ok_iff hs] at h
  obtain ⟨_, ⟨rfl, -⟩, h⟩ := h
  rw [hline, Bool.not_true, if_neg Bool.false_ne_true, bind_ok_iff] at h
  obtain ⟨generation', hgen', h⟩ := h
  have hgen₁ := safeNatural_ok hgen
  have hgen₂ := safeNatural_ok hgen'
  rw [hgen₁] at hgen₂
  cases hgen₂
  obtain ⟨current', hbig', h⟩ := bind_ok_iff.mp h
  rw [hbig] at hbig'
  cases hbig'
  rw [if_neg (by omega)] at h
  simp only [bind_ok_iff, pure_ok_iff] at h
  obtain ⟨identity, hidentity, _, -, _, -, known, hknown, rfl⟩ := h
  have hobject : state.get "agentLineRecord" ≠ .undefined := Value.ne_undefined_of_truthy hline
  -- of what is assigned the first two are not touched again
  have hkeys : ∀ keys : Value, (((state.assign "historicalAgentKeys" keys).assign
      "agentLineRecord" .null).assign "agentRecord" .null).get "historicalAgentKeys" = keys := by
    intro keys
    rw [Value.get_assign_ne (by decide), Value.get_assign_ne (by decide),
      Value.get_assign hobject]
  refine ⟨⟨generation, hgen₁, bigInt_ok hbig ▸ hlt⟩, ?_, ?_, ⟨identity, hidentity, ?_⟩,
    fun key hkey => ?_⟩
  · rw [Value.get_assign_ne (by decide), Value.get_assign (p := "agentLineRecord")]
    rwa [Value.get_assign_ne (by decide)]
  · refine Value.get_assign (p := "agentLineRecord") ?_ _
    rw [Value.get_assign (p := "agentLineRecord")]
    · exact Value.noConfusion
    · rwa [Value.get_assign_ne (by decide)]
  · rw [hkeys]
    -- the key is kept once: it is there already, or it is added
    split
    · next hyes =>
        left
        refine ⟨?_, rfl⟩
        obtain ⟨key, hkey, hcommitment⟩ := mem_of_mapM_ok hknown _ (List.contains_iff_mem.mp hyes)
        simp only [bind_ok_iff] at hcommitment
        obtain ⟨found, hfound, hcommitment⟩ := hcommitment
        rw [access_ok hfound] at hcommitment
        exact ⟨key, hkey, hcommitment⟩
    · exact .inr rfl
  · simp only [List.mem_cons, List.not_mem_nil, or_false, not_or] at hkey
    rw [Value.get_assign_ne hkey.2.1, Value.get_assign_ne hkey.1, Value.get_assign_ne hkey.2.2]

/-! ## Judging and restoring -/

/-- The observation is of the instance that the runtime and the ledger status are of. -/
structure SameInstance (evidence : RuntimeRecoveryEvidence) (runtime : Runtime)
    (ledger : LedgerPublicStatus) : Prop where
  mode : evidence.runtime = runtime.mode
  network : evidence.networkId = runtime.networkId
  domain : SameWord (.string evidence.contractDomain) (.string ledger.contractDomain)
  address : runtime.mode = .network →
    SameWord (.string evidence.contractAddress) (nullable runtime.contractAddress)
  exactAddress : runtime.mode ≠ .network → runtime.contractAddress = some evidence.contractAddress

omit [Line.Compact Bytes] in
theorem observationMatches_true {evidence : RuntimeRecoveryEvidence} {runtime : Runtime}
    {ledger : LedgerPublicStatus} (h : observationMatches evidence runtime ledger = .ok true) :
    SameInstance evidence runtime ledger := by
  simp only [observationMatches, bind_ok_iff] at h
  obtain ⟨address, haddr, h⟩ := h
  rw [sameAddress] at haddr
  have h := allOf_true h
  simp only [List.forall_mem_cons, pure_ok_iff, decide_eq_true_eq, beq_iff_eq] at h
  obtain ⟨hmode, hnet, rfl, hdomain, -⟩ := h
  refine ⟨hmode, hnet, sameCommitment_true hdomain, fun hm => ?_, fun hm => ?_⟩
  · rw [if_pos hm] at haddr
    exact sameCommitment_true haddr
  · rw [if_neg hm, pure_ok_iff, beq_iff_eq] at haddr
    exact haddr.symm

/-- Matching evidence of an operation: its candidate is the public book, if nothing more is asked
of it, or its effect is public; and what it would restore opens the public book. -/
structure Evident (operation : JournalOperation) (runtime : Runtime) (ledger : LedgerPublicStatus)
    (evidence : RuntimeRecoveryEvidence) : Prop where
  instanceOf : SameInstance evidence runtime ledger
  opens : ∃ state, recoveredConsole operation runtime evidence.contractDomain = .ok state ∧
    Opens state runtime evidence
  shown : (compound operation = false ∧ operation.candidateCommitment.isSome = true ∧
      SameWord (nullable operation.candidateCommitment) (nullable evidence.lineCommitment)) ∨
    ∃ effect, operation.expectedEffect = some effect ∧ Shows effect evidence

theorem judge_ok {operation : JournalOperation} {runtime : Runtime} {ledger : LedgerPublicStatus}
    {evidence : RuntimeRecoveryEvidence} {judgement : Judgement}
    (h : judge runtime ledger operation evidence = .ok judgement) (hj : judgement ≠ .nothing) :
    Evident operation runtime ledger evidence := by
  simp only [judge, bind_ok_iff] at h
  obtain ⟨same, hsame, h⟩ := h
  split at h
  · cases h
    exact absurd rfl hj
  · next hyes =>
      obtain rfl : same = true := by simpa using hyes
      obtain ⟨state, hstate, h⟩ := bind_ok_iff.mp h
      obtain ⟨opening, hopening, h⟩ := bind_ok_iff.mp h
      split at h
      · cases h
        exact absurd rfl hj
      · next hyes =>
          obtain rfl : opening = true := by simpa using hyes
          simp only [bind_ok_iff, pure_ok_iff] at h
          obtain ⟨candidateObserved, hcandidate, effectObserved, heffect, rfl⟩ := h
          -- the state that was opened is the one of the snapshot
          obtain ⟨_, -, -, -, hchecked⟩ := recoveredConsole_ok hstate
          refine ⟨observationMatches_true hsame,
            ⟨state, hstate, openingMatches_true hopening hchecked⟩, ?_⟩
          cases candidateObserved with
          -- the ledger shows the candidate book
          | true =>
              have hall := allOf_true hcandidate
              simp only [List.forall_mem_cons, pure_ok_iff, Bool.not_eq_true'] at hall
              obtain ⟨hcompound, hfilled, hcommitment, -⟩ := hall
              refine .inl ⟨hcompound, ?_, sameCommitment_true hcommitment⟩
              cases hc : operation.candidateCommitment with
              | none =>
                  rw [hc] at hfilled
                  cases hfilled
              | some _ => rfl
          | false =>
              -- or the effect that was expected
              cases effectObserved with
              | true => exact .inr (effectMatches_true heffect)
              | false => exact absurd rfl hj

/-- A refund with a mark, if it is of the note. -/
def withReport (note : Option String) (refund : Value) : Value :=
  if (normalizeCommitment (refund.get "noteCommitment")).toOption = some note then
    refund.spread "issuerReportObserved" (.boolean true)
  else refund

/-- A state in which the issuer's report is marked in the refund of a note, and nothing else. -/
structure Marked (target : String) (base state : Value) : Prop where
  kept : ∀ key ≠ "refunds", state.get key = base.get key
  refunds : ∃ note, normalizeCommitment (.string target) = .ok note ∧
    state.get "refunds" = .array ((listed base "refunds").itemsOf.map (withReport note))

/-- What is returned of a state: the report is marked if it is public. -/
def Published (latest : JournalOperation) (evidence : RuntimeRecoveryEvidence)
    (base state : Value) : Prop :=
  match reported latest evidence with
  | some target => Marked target base state
  | none => state = base

/-- Where a restored state comes from: it is the snapshot that a confirmed operation kept,
completed, with its book and, for a compound effect, with that effect public; or the book was from
an earlier generation and is retired, for a note of that generation. -/
inductive Origin (latest : JournalOperation) (options : ReconcileOptions)
    (evidence : RuntimeRecoveryEvidence) (state : Value) : Prop
  | opened {snapshot base : Value} : clone latest.candidateSnapshot = .ok snapshot →
      Completed latest snapshot base →
      (compound latest = true → ∃ effect, latest.expectedEffect = some effect ∧
        Shows effect evidence) →
      Published latest evidence base state → Origin latest options evidence state
  | retired {snapshot base : Value} {target : String} :
      clone latest.candidateSnapshot = .ok snapshot → Completed latest snapshot base →
      Retired evidence base state → latest.acknowledged = true →
      options.historicalNoteCommitment = some target → Origin latest options evidence state

omit [Line.Compact Bytes] in
theorem filled_some {s : Option String} {t : String} (h : filled s = some t) : s = some t := by
  unfold filled at h
  split at h
  · cases h
  · exact h

/-- The state that is restored, if any. -/
def Restoration.state : Restoration → Option Value
  | .blocked => none
  | .retired state | .opened state => some state

/-- **What is restored of the latest confirmed operation opens the public book.** -/
theorem restore_ok {latest : JournalOperation} {options : ReconcileOptions} {runtime : Runtime}
    {ledger : LedgerPublicStatus} {evidence : RuntimeRecoveryEvidence} {restored : Restoration}
    {state : Value} (hr : ∀ r ∈ latest.receipt, (r.get "txHash").Proper)
    (h : restore runtime ledger latest options evidence = .ok restored)
    (hs : restored.state = some state) :
    SameInstance evidence runtime ledger ∧ Opens state runtime evidence ∧
      ∃ snapshot base, clone latest.candidateSnapshot = .ok snapshot ∧
        Completed latest snapshot base ∧ (base.get "merchantQuotes").isArray = true ∧
        (restored = .opened base ∧ state = base ∧ (compound latest = true → ∃ effect,
            latest.expectedEffect = some effect ∧ Shows effect evidence) ∨
          restored = .retired state ∧ Retired evidence base state ∧ latest.acknowledged = true ∧
            ∃ target, options.historicalNoteCommitment = some target) := by
  simp only [restore, bind_ok_iff] at h
  obtain ⟨same, hsame, h⟩ := h
  split at h
  · cases h
    cases hs
  · next hyes =>
      obtain rfl : same = true := by simpa using hyes
      obtain ⟨base, hbase, h⟩ := bind_ok_iff.mp h
      obtain ⟨opening, hopening, h⟩ := bind_ok_iff.mp h
      obtain ⟨snapshot, hclone, hcompleted, hquotes, hchecked⟩ := recoveredConsole_ok hbase
      refine ⟨observationMatches_true hsame, ?_⟩
      split at h
      -- the snapshot opens the public book
      · next hopens =>
          have hopens := openingMatches_true (hopens ▸ hopening) hchecked
          -- a compound operation also has to show its effect
          have hopened : restored = .opened base ∧ base = state ∧ (compound latest = true →
              ∃ effect, latest.expectedEffect = some effect ∧ Shows effect evidence) := by
            split at h
            · obtain ⟨shown, hshown, h⟩ := bind_ok_iff.mp h
              cases h
              cases shown with
              | true => exact ⟨rfl, Option.some.inj hs, fun _ => effectMatches_true hshown⟩
              | false => cases hs
            · next hno =>
                cases h
                exact ⟨rfl, Option.some.inj hs, fun hyes => absurd hyes hno⟩
          obtain ⟨hrestored, rfl, hshown⟩ := hopened
          exact ⟨hopens, snapshot, base, hclone, hcompleted, hquotes,
            .inl ⟨hrestored, rfl, hshown⟩⟩
      · split at h
        -- or its line has been replaced, and its note is asked for
        · next target hack htarget =>
            obtain ⟨retired, hretired, h⟩ := bind_ok_iff.mp h
            obtain ⟨again, hagain, h⟩ := bind_ok_iff.mp h
            cases h
            cases again with
            | false => cases hs
            | true =>
                obtain rfl : retired = state := Option.some.inj hs
                have hretired :=
                  retireForHistoricalNote_ok (recoveredConsole_proper hr hbase) hretired
                refine ⟨openingMatches_true hagain fun hyes => ?_, snapshot, base, hclone,
                  hcompleted, hquotes, .inr ⟨rfl, hretired, hack, target, filled_some htarget⟩⟩
                rw [hretired.line] at hyes
                cases hyes
        · cases h
          cases hs

omit [Line.Compact Bytes] in
theorem markReported_ok {base state : Value} {target : String}
    (hquotes : (base.get "merchantQuotes").isArray = true)
    (h : markReported base target = .ok state) : Marked target base state := by
  simp only [markReported, bind_ok_iff, pure_ok_iff] at h
  obtain ⟨note, hnote, refunds, hrefunds, rfl⟩ := h
  have hobject : base.get "merchantQuotes" ≠ .undefined := by
    intro hno
    rw [hno] at hquotes
    cases hquotes
  refine ⟨fun key hkey => Value.get_assign_ne hkey _ _, note, hnote, ?_⟩
  rw [Value.get_assign hobject]
  refine congrArg Value.array (map_of_mapM_ok (fun refund marked hmark => ?_) hrefunds)
  simp only [bind_ok_iff, pure_ok_iff] at hmark
  obtain ⟨found, hfound, commitment, hcommitment, rfl⟩ := hmark
  rw [access_ok hfound] at hcommitment
  simp only [withReport, hcommitment, Except.toOption, Option.some.injEq, beq_iff_eq]

omit [Line.Compact Bytes] in
/-- **What is returned is that state**, perhaps with the issuer's report marked in a refund. -/
theorem publish_ok {latest : JournalOperation} {options : ReconcileOptions}
    {evidence : RuntimeRecoveryEvidence} {base state : Value} {r : ConsoleReconciliation}
    (hquotes : (base.get "merchantQuotes").isArray = true)
    (h : publish latest options evidence base = .ok r) (hs : r.privateState = some state) :
    Published latest evidence base state := by
  unfold publish at h
  unfold Published
  cases hreported : reported latest evidence with
  | some target =>
      rw [hreported] at h
      simp only [bind_ok_iff, pure_ok_iff] at h
      obtain ⟨marked, hmarked, rfl⟩ := h
      cases hs
      exact markReported_ok hquotes hmarked
  | none =>
      rw [hreported] at h
      dsimp only at h
      split at h
      · cases h
        cases hs
      · cases h
        cases hs
        rfl

theorem Opens.congr {state state' : Value} {runtime : Runtime} {evidence : RuntimeRecoveryEvidence}
    (h : Opens state runtime evidence) (heq : ∀ key ≠ "refunds", state'.get key = state.get key) :
    Opens state' runtime evidence := by
  have hline := heq "agentLineRecord" (by decide)
  have hrecord := heq "agentRecord" (by decide)
  refine ⟨?_, ?_, ?_⟩
  · rw [hline]
    exact h.line
  · rw [hline, hrecord]
    exact h.record
  · rw [hline, hrecord]
    exact h.none

omit [Line.Compact Bytes] in
/-- Only the refunds of a state are touched before it is returned. -/
theorem Published.kept {latest : JournalOperation} {evidence : RuntimeRecoveryEvidence}
    {base state : Value} (h : Published latest evidence base state) :
    ∀ key ≠ "refunds", state.get key = base.get key := by
  unfold Published at h
  cases hreported : reported latest evidence with
  | some target =>
      rw [hreported] at h
      exact h.kept
  | none =>
      rw [hreported] at h
      intro key _
      rw [show state = base from h]

/-- **What comes of the latest confirmed operation**: a state that is returned opens the book. -/
theorem conclude_ok {latest : JournalOperation} {options : ReconcileOptions} {runtime : Runtime}
    {ledger : LedgerPublicStatus} {evidence : RuntimeRecoveryEvidence} {r : ConsoleReconciliation}
    {state : Value} (hr : ∀ r ∈ latest.receipt, (r.get "txHash").Proper)
    (h : conclude runtime ledger latest options evidence = .ok r)
    (hs : r.privateState = some state) :
    SameInstance evidence runtime ledger ∧ Opens state runtime evidence ∧
      Origin latest options evidence state := by
  unfold conclude at h
  split at h
  · cases h
    cases hs
  · cases h
    cases hs
  -- retired: it is returned as it is
  · next hrestore =>
      cases h
      cases hs
      obtain ⟨hinstance, hopens, snapshot, base, hclone, hcompleted, -, horigin⟩ :=
        restore_ok hr hrestore rfl
      refine ⟨hinstance, hopens, ?_⟩
      rcases horigin with ⟨hno, -⟩ | ⟨-, hretired, hack, target, htarget⟩
      · cases hno
      · exact .retired hclone hcompleted hretired hack htarget
  · next hrestore =>
      obtain ⟨hinstance, hopens, snapshot, base, hclone, hcompleted, hquotes, horigin⟩ :=
        restore_ok hr hrestore rfl
      rcases horigin with ⟨-, rfl, hshown⟩ | ⟨hno, -⟩
      -- opened: it is published, which marks reported quotes only
      · have hpublished := publish_ok hquotes h hs
        exact ⟨hinstance, hopens.congr hpublished.kept,
          .opened hclone hcompleted hshown hpublished⟩
      · cases hno

end Hashes

end Line.Console
