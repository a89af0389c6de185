/-
# Daemon.Provisioning -- the state directory over run after run

A run that finds the four files takes them for what they should be.  So whatever the run that
opened the last of them left is served from then on: files that were cut short
(`provisioning_iff`), and a certificate for another address (`served_address_iff`).
-/
import SpnavBridge.Daemon.Certificates

namespace SpnavBridge.Daemon

open SpnavBridge.Theory

set_option autoImplicit false

variable {K : Type}

/-! ## Interrupted runs -/

/-- The files are complete, the keys are those of the certificates, and the CA on disk has
issued the leaf. -/
def Consistent (dir : StateDir K) : Prop :=
  ∃ caKey caCrt leafKey leafCrt,
    (dir .caKey = .whole (.key caKey) ∧ dir .caCrt = .whole (.cert caCrt) ∧
      dir .leafKey = .whole (.key leafKey) ∧ dir .leafCrt = .whole (.cert leafCrt)) ∧
    caCrt.key = caKey ∧ leafCrt.key = leafKey ∧ leafCrt.IssuedBy caCrt

/-- A run that opens the last file leaves what belongs together exactly when all it wrote is
in the files. -/
theorem consistent_run_iff {bindIp : CStr} {calls : RunCalls K} {dir : StateDir K}
    (absent : dir .leafCrt = .absent) {caKey leafKey : K}
    (opens : OpensLeafCrt calls caKey leafKey) :
    Consistent (tlsEnsureCerts bindIp calls dir).1 ↔ ∀ file, (calls.write file).Whole := by
  have files : ∀ file, (tlsEnsureCerts bindIp calls dir).1 file =
      if (calls.write file).Whole then .whole (pem bindIp caKey leafKey file) else .cut :=
    run_files absent opens
  constructor
  · rintro ⟨_, _, _, _, ⟨key, crt, leafKey, leafCrt⟩, -⟩ file
    have complete : ∃ content, (tlsEnsureCerts bindIp calls dir).1 file = .whole content := by
      cases file with
      | caKey => exact ⟨_, key⟩
      | caCrt => exact ⟨_, crt⟩
      | leafKey => exact ⟨_, leafKey⟩
      | leafCrt => exact ⟨_, leafCrt⟩
    obtain ⟨content, complete⟩ := complete
    by_contra cut
    rw [files, if_neg cut] at complete
    cases complete
  · intro whole
    have left : ∀ file, (tlsEnsureCerts bindIp calls dir).1 file =
        .whole (pem bindIp caKey leafKey file) := by
      intro file
      rw [files, if_pos (whole file)]
    exact ⟨caKey, caCert caKey, leafKey, leafCert bindIp caKey leafKey,
      ⟨left .caKey, left .caCrt, left .leafKey, left .leafCrt⟩, rfl, rfl, rfl, rfl, rfl⟩

/-- A run that returns 0, or leaves what later runs take for provisioned, leaves files that
belong together. -/
def TakenRightly (past : List (CertRun K)) (run : CertRun K) : Prop :=
  (provisioning K).answer past run = .returned 0 ∨
      Provisioned ((provisioning K).after (past ++ [run])) →
    Consistent ((provisioning K).after (past ++ [run]))

/-- A run that does not find all files, and gets as far as opening the last, has all that it
wrote in the files. -/
def WritesAll (past : List (CertRun K)) (run : CertRun K) : Prop :=
  ¬ Provisioned ((provisioning K).after past) → ∀ caKey leafKey,
    OpensLeafCrt run.calls caKey leafKey → ∀ file, (run.calls.write file).Whole

theorem leafLast_after (runs : List (CertRun K)) : LeafLast ((provisioning K).after runs) :=
  (provisioning K).invariant (I := fun _ => LeafLast) (fun there => absurd rfl there)
    (fun _ _ before => leafLast_run before) runs

theorem absent_of_missing {runs : List (CertRun K)}
    (missing : ¬ Provisioned ((provisioning K).after runs)) :
    (provisioning K).after runs .leafCrt = .absent :=
  not_not.mp (mt (leafLast_after runs) missing)

theorem TakenRightly.writesAll {past : List (CertRun K)} {run : CertRun K}
    (rightly : TakenRightly past run) : WritesAll past run := by
  intro missing caKey leafKey opens
  have absent := absent_of_missing missing
  rw [TakenRightly, Machine.after_snoc] at rightly
  refine (consistent_run_iff absent opens).mp (rightly (Or.inr ?_))
  exact leafLast_run (leafLast_after past) ((run_leafCrt absent).mpr ⟨caKey, leafKey, opens⟩)

theorem WritesAll.takenRightly {past : List (CertRun K)} {run : CertRun K}
    (writes : WritesAll past run)
    (before : Provisioned ((provisioning K).after past) →
      Consistent ((provisioning K).after past)) : TakenRightly past run := by
  intro taken
  have there : Provisioned ((provisioning K).after (past ++ [run])) := by
    rcases taken with done | there
    · rw [Machine.after_snoc]
      exact run_done (leafLast_after past) done
    · exact there
  rw [Machine.after_snoc] at there ⊢
  by_cases all : Provisioned ((provisioning K).after past)
  · -- the run finds all files and leaves them
    have same : ((provisioning K).step ((provisioning K).after past) run).1 =
        (provisioning K).after past := run_provisioned all
    rw [same]
    exact before all
  · have absent := absent_of_missing all
    obtain ⟨caKey, leafKey, opens⟩ := (run_leafCrt absent).mp (there .leafCrt)
    exact (consistent_run_iff absent opens).mpr (writes all caKey leafKey opens)

/-- What is taken for provisioned behind runs that write all is consistent. -/
theorem consistent_after {runs : List (CertRun K)} (writes : Along WritesAll runs)
    (there : Provisioned ((provisioning K).after runs)) :
    Consistent ((provisioning K).after runs) := by
  induction runs using List.reverseRecOn with
  | nil => exact absurd rfl (there .leafCrt)
  | append_singleton past run ih =>
      obtain ⟨before, last⟩ := (along_snoc past run).mp writes
      exact last.takenRightly (ih before) (Or.inr there)

/-- **Provisioning and interrupted runs.**  Every run is right to take the files for
provisioned exactly when every run that opened the last of them wrote all four in full. -/
theorem provisioning_iff (runs : List (CertRun K)) :
    Along TakenRightly runs ↔ Along WritesAll runs := by
  constructor
  · intro rightly past run rest split
    exact (rightly past run rest split).writesAll
  · intro writes past run rest split
    subst split
    exact (writes past run rest rfl).takenRightly (consistent_after writes.front)

/-- All calls succeed. -/
def RunCalls.undisturbed (caKey leafKey : K) : RunCalls K :=
  ⟨some true, some (some caKey, some leafKey), fun _ => .undisturbed⟩

/-- The calls of one file become others. -/
def RunCalls.disturbed (calls : RunCalls K) (file : PemFile) (write : WriteCalls) : RunCalls K :=
  { calls with write := Function.update calls.write file write }

/-- The process is killed when it has opened the certificate of the leaf. -/
def interruptedRun : CertRun Nat :=
  ⟨.lit "127.51.68.120",
    (RunCalls.undisturbed 0 1).disturbed .leafCrt ⟨some true, none, false, none, none⟩⟩

/-- The disk is full when the key of the leaf is closed. -/
def unflushedRun : CertRun Nat :=
  ⟨.lit "127.51.68.120", (RunCalls.undisturbed 0 1).disturbed .leafKey
    { WriteCalls.undisturbed with reaches := false }⟩

def undisturbedRun : CertRun Nat := ⟨.lit "127.51.68.120", .undisturbed 2 3⟩

theorem interrupted_taken :
    ((provisioning Nat).answer [interruptedRun] undisturbedRun = .returned 0 ∧
      ¬ Consistent ((provisioning Nat).after [interruptedRun, undisturbedRun]) ∧
      tlsMakeServerCtx true ((provisioning Nat).after [interruptedRun, undisturbedRun]) = none) ∧
    (provisioning Nat).answer [] unflushedRun = .returned 0 ∧
      ¬ Consistent ((provisioning Nat).after [unflushedRun]) := by
  refine ⟨⟨by decide, ?_, by decide⟩, by decide, ?_⟩
  · rintro ⟨_, _, _, _, ⟨-, -, -, whole⟩, -⟩
    have cut : (provisioning Nat).after [interruptedRun, undisturbedRun] .leafCrt = .cut := by decide
    cases cut.symm.trans whole
  · rintro ⟨_, _, _, _, ⟨-, -, whole, -⟩, -⟩
    have cut : (provisioning Nat).after [unflushedRun] .leafKey = .cut := by decide
    cases cut.symm.trans whole

/-! ## The address of the certificate -/

def digit (n : Nat) : UInt8 := .ofNat (48 + n)

/-- A number below 256 without leading zeros. -/
def octetText (n : UInt8) : List UInt8 :=
  if n.toNat < 10 then [digit n.toNat]
  else if n.toNat < 100 then [digit (n.toNat / 10), digit (n.toNat % 10)]
  else [digit (n.toNat / 100), digit (n.toNat / 10 % 10), digit (n.toNat % 10)]

theorem octetText_length (n : UInt8) : (octetText n).length ≤ 3 := by
  simp only [octetText]
  split
  · simp
  · split <;> simp

/-- A `--host` that `inet_pton` takes and that is not refused: 127, and three octets.  An
address has one text. -/
structure LoopbackHost where
  text : CStr
  dotted : ∃ a b c, text.bytes =
    ascii "127." ++ octetText a ++ ascii "." ++ octetText b ++ ascii "." ++ octetText c
  deriving DecidableEq

theorem LoopbackHost.fits (host : LoopbackHost) :
    ((CStr.lit "IP:").append host.text).length ≤ 127 := by
  obtain ⟨a, b, c, dotted⟩ := host.dotted
  have first := octetText_length a
  have second := octetText_length b
  have third := octetText_length c
  have prefix_ : (CStr.lit "IP:").bytes.length = 3 := by decide
  have net : (ascii "127.").length = 4 := by decide
  have dot : (ascii ".").length = 1 := by decide
  show ((CStr.lit "IP:").bytes ++ host.text.bytes).length ≤ 127
  rw [dotted]
  simp only [List.length_append, prefix_, net, dot]
  omega

/-- The host is the subjectAltName IP of the certificate. -/
def Certificate.Covers (cert : Certificate K) (host : LoopbackHost) : Prop :=
  cert.san.map CBuf.str = some ((CStr.lit "IP:").append host.text)

theorem leafCert_covers_iff (bound host : LoopbackHost) (caKey leafKey : K) :
    (leafCert bound.text caKey leafKey).Covers host ↔ host.text = bound.text := by
  show some (CBuf.printf 127 ((CStr.lit "IP:").append bound.text)).str = some _ ↔ _
  rw [CBuf.printf_of_fits bound.fits, Option.some_inj]
  constructor
  · intro same
    apply CStr.ext
    exact (List.append_cancel_left (congrArg CStr.bytes same)).symm
  · intro same
    rw [same]

/-- A start of the daemon in which nothing goes wrong. -/
structure CompletedStart (K : Type) where
  host : LoopbackHost
  caKey : K
  leafKey : K

def CompletedStart.run (start : CompletedStart K) : CertRun K :=
  ⟨start.host.text, .undisturbed start.caKey start.leafKey⟩

/-- The state directory behind a list of starts. -/
def behind (starts : List (CompletedStart K)) : StateDir K :=
  (provisioning K).after (starts.map CompletedStart.run)

theorem behind_snoc (starts : List (CompletedStart K)) (start : CompletedStart K) :
    behind (starts ++ [start]) =
      (tlsEnsureCerts start.host.text start.run.calls (behind starts)).1 := by
  rw [behind, List.map_append, List.map_singleton, Machine.after_snoc]
  rfl

theorem opens_undisturbed (caKey leafKey : K) :
    OpensLeafCrt (.undisturbed caKey leafKey) caKey leafKey where
  mkdir := rfl
  genEcKey := rfl
  caKey := ⟨⟨rfl, rfl, rfl⟩, rfl⟩
  caCrt := ⟨rfl, rfl, rfl⟩
  leafKey := ⟨⟨rfl, rfl, rfl⟩, rfl⟩
  leafCrt := rfl

/-- **The files are those of the first start**, whatever came behind it. -/
theorem behind_first (first : CompletedStart K) (rest : List (CompletedStart K)) :
    behind (first :: rest) =
      fun file => .whole (pem first.host.text first.caKey first.leafKey file) := by
  induction rest using List.reverseRecOn with
  | nil =>
      have absent : (emptyDir : StateDir K) .leafCrt = .absent := rfl
      funext file
      exact (run_files absent (opens_undisturbed _ _) file).trans (if_pos ⟨rfl, rfl⟩)
  | append_singleton rest start ih =>
      rw [← List.cons_append, behind_snoc, ih]
      exact run_provisioned fun file => by simp

/-- The certificate of the leaf on disk is for the address that is bound now. -/
def ServesHost (past : List (CompletedStart K)) (start : CompletedStart K) : Prop :=
  (provisioning K).answer (past.map CompletedStart.run) start.run = .returned 0 →
    ∃ cert, behind (past ++ [start]) .leafCrt = .whole (.cert cert) ∧ cert.Covers start.host

/-- A completed start returns 0: it finds the files, or writes them. -/
theorem completed_returns (past : List (CompletedStart K)) (start : CompletedStart K) :
    (provisioning K).answer (past.map CompletedStart.run) start.run = .returned 0 := by
  cases past with
  | nil => rfl
  | cons first rest =>
      have files := behind_first first rest
      refine run_provisioned_done (fun file => ?_) rfl
      show behind (first :: rest) file ≠ .absent
      rw [files]
      simp

/-- The first start makes the certificate, so it is for the address of the first. -/
theorem servesHost_iff (past : List (CompletedStart K)) (start : CompletedStart K) :
    ServesHost past start ↔ ∀ first ∈ past.head?, start.host.text = first.host.text := by
  have certificate : ∀ bound : CompletedStart K,
      (behind (past ++ [start]) .leafCrt =
        .whole (.cert (leafCert bound.host.text bound.caKey bound.leafKey))) →
      (ServesHost past start ↔ start.host.text = bound.host.text) := by
    intro bound left
    rw [← leafCert_covers_iff bound.host start.host bound.caKey bound.leafKey]
    constructor
    · intro serves
      obtain ⟨cert, there, covers⟩ := serves (completed_returns past start)
      cases left.symm.trans there
      exact covers
    · exact fun covers _ => ⟨_, left, covers⟩
  cases past with
  | nil =>
      rw [certificate start (congrFun (behind_first start []) .leafCrt)]
      simp
  | cons first rest =>
      rw [certificate first (congrFun (behind_first first (rest ++ [start])) .leafCrt)]
      simp

/-- **The certificate and the address.**  Every start serves a certificate for its own address
exactly when all of them have the address of the first. -/
theorem served_address_iff (starts : List (CompletedStart K)) :
    Along ServesHost starts ↔
      ∀ first ∈ starts.head?, ∀ start ∈ starts, start.host.text = first.host.text := by
  constructor
  · intro serves first head start member
    obtain ⟨past, rest, split⟩ := List.append_of_mem member
    have own := (servesHost_iff past start).mp (serves past start rest split)
    cases past with
    | nil =>
        rw [split] at head
        cases head
        rfl
    | cons other past =>
        rw [split] at head
        exact own first head
  · intro same past start rest split
    refine (servesHost_iff past start).mpr fun first head => same first ?_ start ?_
    · rw [split, List.head?_append, Option.mem_def.mp head]
      rfl
    · rw [split]
      simp

def localhost : LoopbackHost := ⟨.lit "127.0.0.1", 0, 0, 1, by decide⟩

/-- The default of `--host`. -/
def defaultHost : LoopbackHost := ⟨.lit "127.51.68.120", 51, 68, 120, by decide⟩

/-- A second start on another address serves the certificate of the first. -/
theorem other_address :
    (provisioning Nat).answer [CompletedStart.run ⟨localhost, 0, 1⟩]
        (CompletedStart.run ⟨defaultHost, 2, 3⟩) = .returned 0 ∧
      ¬ ServesHost (K := Nat) [⟨localhost, 0, 1⟩] ⟨defaultHost, 2, 3⟩ := by
  refine ⟨by decide, fun serves => ?_⟩
  have same := (servesHost_iff _ _).mp serves _ rfl
  exact absurd same (by decide)

end SpnavBridge.Daemon
