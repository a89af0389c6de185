/-
# Daemon.Certificates -- tls.c, and the four files of the state directory

`tls_ensure_certs` takes the certificates for provisioned when the four files are there, and
writes all of them otherwise, the certificate of the leaf last.  Which of its calls fail, and
before which the process is killed, is in `RunCalls`.

A key of type `K` stands for both halves of a key pair, and a signature for the key that made
it, so that generating and signing are as good as OpenSSL promises.

* `LeafLast`: where the certificate of the leaf is, the other files are (`leafLast_run`).
* `run_files`: what a run that opens it leaves in the files.
-/
import SpnavBridge.Theory.CString
import SpnavBridge.Theory.Machine
import SpnavBridge.Theory.Overwrite

namespace SpnavBridge.Daemon

open SpnavBridge.Theory

set_option autoImplicit false

variable {K : Type}

/-! ## Certificates -/

def caValidDays : Nat := 3650
def leafValidDays : Nat := 730

/-- A certificate: `key` is the one it is for, `signer` the one it is signed with. -/
structure Certificate (K : Type) where
  subject : CStr
  issuer : CStr
  key : K
  signer : K
  ca : Bool
  validDays : Nat
  /-- the value of the subjectAltName extension -/
  san : Option (CBuf 127)
  deriving DecidableEq

/-- `make_cert` -/
def makeCert (subjKey issuerKey : K) (issuerCert : Option (Certificate K)) (cn : CStr)
    (isCa : Bool) (validDays : Nat) (sanIp : Option CStr) : Certificate K where
  subject := cn
  issuer := (issuerCert.map Certificate.subject).getD cn
  key := subjKey
  signer := issuerKey
  ca := isCa
  validDays := validDays
  san := if isCa then none else sanIp.map fun ip => .printf 127 ((CStr.lit "IP:").append ip)

def Certificate.IssuedBy (leaf issuer : Certificate K) : Prop :=
  leaf.issuer = issuer.subject ∧ leaf.signer = issuer.key ∧ issuer.ca = true

def caCert (caKey : K) : Certificate K :=
  makeCert caKey caKey none (.lit "spnav-onshape-bridge local CA") true caValidDays none

def leafCert (bindIp : CStr) (caKey leafKey : K) : Certificate K :=
  makeCert leafKey caKey (some (caCert caKey)) bindIp false leafValidDays (some bindIp)

/-! ## The state directory -/

inductive PemFile where
  | caKey
  | caCrt
  | leafKey
  | leafCrt
  deriving DecidableEq

inductive Pem (K : Type) where
  | key (key : K)
  | cert (cert : Certificate K)
  deriving DecidableEq

abbrev StateDir (K : Type) := PemFile → FileState (Pem K)

def emptyDir : StateDir K := fun _ => .absent

def fileExists (dir : StateDir K) (file : PemFile) : Bool :=
  match dir file with
  | .absent => false
  | _ => true

def writePemKey (calls : WriteCalls) (key : K) : Piece (FileState (Pem K)) :=
  (overwrite calls (.key key)).andThen (chmod calls)

def writePemCert (calls : WriteCalls) (cert : Certificate K) : Piece (FileState (Pem K)) :=
  overwrite calls (.cert cert)

/-! ## Provisioning -/

/-- What becomes of the calls of a run, `none` where the process is killed before the call. -/
structure RunCalls (K : Type) where
  /-- the directory is made, or is there -/
  mkdir : Option Bool
  /-- `gen_ec_key` for the CA and for the leaf -/
  genEcKey : Option (Option K × Option K)
  write : PemFile → WriteCalls

/-- The files in front of the last. -/
def firstFiles (calls : RunCalls K) (caKey leafKey : K) :
    List (PemFile × Piece (FileState (Pem K))) :=
  [(.caKey, writePemKey (calls.write .caKey) caKey),
    (.caCrt, writePemCert (calls.write .caCrt) (caCert caKey)),
    (.leafKey, writePemKey (calls.write .leafKey) leafKey)]

def lastFile (bindIp : CStr) (calls : RunCalls K) (caKey leafKey : K) :
    PemFile × Piece (FileState (Pem K)) :=
  (.leafCrt, writePemCert (calls.write .leafCrt) (leafCert bindIp caKey leafKey))

/-- All four, the certificate of the leaf last. -/
def writeCerts (bindIp : CStr) (calls : RunCalls K) (caKey leafKey : K) : Piece (StateDir K) :=
  writeInTurn (firstFiles calls caKey leafKey ++ [lastFile bindIp calls caKey leafKey])

def tlsEnsureCerts (bindIp : CStr) (calls : RunCalls K) : Piece (StateDir K) := fun dir =>
  match calls.mkdir with
  | none => (dir, .killed)
  | some false => (dir, .returned (-1))
  | some true =>
      if fileExists dir .caKey && fileExists dir .caCrt && fileExists dir .leafKey
          && fileExists dir .leafCrt then (dir, .returned 0)
      else
        match calls.genEcKey with
        | none => (dir, .killed)
        | some (some caKey, some leafKey) => writeCerts bindIp calls caKey leafKey dir
        | some _ => (dir, .returned (-1))

/-- `tls_make_server_ctx`: the certificate and the key that are served.  OpenSSL loads neither
from a file that is cut short, and no key that is not the certificate's. -/
def tlsMakeServerCtx [DecidableEq K] (created : Bool) (dir : StateDir K) :
    Option (Certificate K × K) :=
  match dir .leafCrt, dir .leafKey with
  | .whole (.cert cert), .whole (.key key) =>
      if created ∧ cert.key = key then some (cert, key) else none
  | _, _ => none

/-- A run of `tls_ensure_certs`. -/
structure CertRun (K : Type) where
  bindIp : CStr
  calls : RunCalls K

/-- Run after run on one state directory. -/
def provisioning (K : Type) : Machine (StateDir K) (CertRun K) Ending :=
  ⟨emptyDir, fun dir run => tlsEnsureCerts run.bindIp run.calls dir⟩

/-! ## One run -/

/-- All four files are there. -/
def Provisioned (dir : StateDir K) : Prop := ∀ file, dir file ≠ .absent

theorem fileExists_iff (dir : StateDir K) (file : PemFile) :
    fileExists dir file = true ↔ dir file ≠ .absent := by
  cases held : dir file <;> simp [fileExists, held]

theorem provisioned_iff (dir : StateDir K) :
    (fileExists dir .caKey && fileExists dir .caCrt && fileExists dir .leafKey
      && fileExists dir .leafCrt) = true ↔ Provisioned dir := by
  simp only [Bool.and_eq_true, fileExists_iff]
  constructor
  · rintro ⟨⟨⟨caKey, caCrt⟩, leafKey⟩, leafCrt⟩ file
    cases file <;> assumption
  · exact fun all => ⟨⟨⟨all _, all _⟩, all _⟩, all _⟩

/-- The certificate of the leaf is not there without the other files. -/
def LeafLast (dir : StateDir K) : Prop := dir .leafCrt ≠ .absent → Provisioned dir

/-- The run, where it does not find all files, gets as far as opening the last. -/
structure OpensLeafCrt (calls : RunCalls K) (caKey leafKey : K) : Prop where
  mkdir : calls.mkdir = some true
  genEcKey : calls.genEcKey = some (some caKey, some leafKey)
  caKey : (calls.write .caKey).Reported ∧ (calls.write .caKey).chmod = some true
  caCrt : (calls.write .caCrt).Reported
  leafKey : (calls.write .leafKey).Reported ∧ (calls.write .leafKey).chmod = some true
  leafCrt : (calls.write .leafCrt).fopen = some true

theorem writePemKey_done_iff (calls : WriteCalls) (key : K) (file : FileState (Pem K)) :
    (writePemKey calls key file).2 = .returned 0 ↔ calls.Reported ∧ calls.chmod = some true := by
  rw [writePemKey, Piece.andThen_done_iff, overwrite_done_iff, chmod_done_iff]

theorem writePemKey_file (calls : WriteCalls) (key : K) (file : FileState (Pem K)) :
    (writePemKey calls key file).1 = (overwrite calls (.key key) file).1 := by
  by_cases done : (overwrite calls (.key key) file).2 = .returned 0
  · rw [writePemKey, Piece.andThen_of_done done, chmod_file]
  · rw [writePemKey, Piece.andThen_of_stopped done]

theorem files_distinct (bindIp : CStr) (calls : RunCalls K) (caKey leafKey : K) :
    ((firstFiles calls caKey leafKey ++ [lastFile bindIp calls caKey leafKey]).map
      Prod.fst).Nodup := by
  show [PemFile.caKey, .caCrt, .leafKey, .leafCrt].Nodup
  decide

theorem firstFiles_done_iff (calls : RunCalls K) (caKey leafKey : K) (dir : StateDir K) :
    (∀ job ∈ firstFiles calls caKey leafKey, (job.2 (dir job.1)).2 = .returned 0) ↔
      ((calls.write .caKey).Reported ∧ (calls.write .caKey).chmod = some true) ∧
        (calls.write .caCrt).Reported ∧
        (calls.write .leafKey).Reported ∧ (calls.write .leafKey).chmod = some true := by
  simp [firstFiles, writePemKey_done_iff, writePemCert, overwrite_done_iff]

theorem OpensLeafCrt.first {calls : RunCalls K} {caKey leafKey : K}
    (opens : OpensLeafCrt calls caKey leafKey) (dir : StateDir K) :
    ∀ job ∈ firstFiles calls caKey leafKey, (job.2 (dir job.1)).2 = .returned 0 :=
  (firstFiles_done_iff calls caKey leafKey dir).mpr ⟨opens.caKey, opens.caCrt, opens.leafKey⟩

/-- What belongs into a file. -/
def pem (bindIp : CStr) (caKey leafKey : K) : PemFile → Pem K
  | .caKey => .key caKey
  | .caCrt => .cert (caCert caKey)
  | .leafKey => .key leafKey
  | .leafCrt => .cert (leafCert bindIp caKey leafKey)

section Run

variable {bindIp : CStr} {calls : RunCalls K} {dir : StateDir K}

theorem run_provisioned (all : Provisioned dir) : (tlsEnsureCerts bindIp calls dir).1 = dir := by
  simp only [tlsEnsureCerts, (provisioned_iff dir).mpr all, if_true]
  split <;> rfl

/-- A run that finds all files returns 0 without looking into them. -/
theorem run_provisioned_done (all : Provisioned dir) (mkdir : calls.mkdir = some true) :
    (tlsEnsureCerts bindIp calls dir).2 = .returned 0 := by
  simp only [tlsEnsureCerts, mkdir, (provisioned_iff dir).mpr all, if_true]

variable (bindIp calls) in
/-- A run that does not find all files writes them, or leaves the directory as it is. -/
theorem run_cases (missing : ¬ Provisioned dir) :
    (∃ caKey leafKey, calls.mkdir = some true ∧
      calls.genEcKey = some (some caKey, some leafKey) ∧
      tlsEnsureCerts bindIp calls dir = writeCerts bindIp calls caKey leafKey dir) ∨
    ((∀ caKey leafKey, ¬ OpensLeafCrt calls caKey leafKey) ∧
      (tlsEnsureCerts bindIp calls dir).1 = dir ∧
      (tlsEnsureCerts bindIp calls dir).2 ≠ .returned 0) := by
  unfold tlsEnsureCerts
  rw [if_neg (mt (provisioned_iff dir).mp missing)]
  cases mkdir : calls.mkdir with
  | none =>
      exact Or.inr ⟨fun _ _ opens => by simpa [mkdir] using opens.mkdir, rfl, by simp⟩
  | some made =>
      cases made with
      | false =>
          exact Or.inr ⟨fun _ _ opens => by simpa [mkdir] using opens.mkdir, rfl, by simp⟩
      | true =>
          rcases keys : calls.genEcKey with _ | ⟨_ | caKey, _ | leafKey⟩
          case some.true.some.some.some =>
            exact Or.inl ⟨caKey, leafKey, rfl, rfl, rfl⟩
          all_goals
            exact Or.inr ⟨fun _ _ opens => by simpa [keys] using opens.genEcKey, rfl, by simp⟩

/-- The certificate of the leaf is there behind the run only if the run opened it. -/
theorem run_leafCrt (absent : dir .leafCrt = .absent) :
    (tlsEnsureCerts bindIp calls dir).1 .leafCrt ≠ .absent ↔
      ∃ caKey leafKey, OpensLeafCrt calls caKey leafKey := by
  have missing : ¬ Provisioned dir := fun all => all .leafCrt absent
  rcases run_cases bindIp calls missing with
    ⟨caKey, leafKey, mkdir, keys, writes⟩ | ⟨stops, same, -⟩
  · have last := writeInTurn_last (files_distinct bindIp calls caKey leafKey) absent
    rw [writes]
    refine (last.trans (and_congr (firstFiles_done_iff calls caKey leafKey dir)
      (overwrite_absent_iff _ _))).trans ?_
    constructor
    · rintro ⟨⟨first, second, third⟩, opened⟩
      exact ⟨caKey, leafKey, mkdir, keys, first, second, third, opened⟩
    · rintro ⟨_, _, opens⟩
      exact ⟨⟨opens.caKey, opens.caCrt, opens.leafKey⟩, opens.leafCrt⟩
  · rw [same, absent]
    simpa using stops

/-- What a run that opens the last file leaves in each. -/
theorem run_files (absent : dir .leafCrt = .absent) {caKey leafKey : K}
    (opens : OpensLeafCrt calls caKey leafKey) (file : PemFile) :
    (tlsEnsureCerts bindIp calls dir).1 file =
      if (calls.write file).Whole then .whole (pem bindIp caKey leafKey file) else .cut := by
  have missing : ¬ Provisioned dir := fun all => all .leafCrt absent
  rcases run_cases bindIp calls missing with
    ⟨caKey', leafKey', -, keys, writes⟩ | ⟨stops, -, -⟩
  · obtain ⟨rfl, rfl⟩ : caKey' = caKey ∧ leafKey' = leafKey := by
      simpa using keys.symm.trans opens.genEcKey
    have distinct := files_distinct bindIp calls caKey' leafKey'
    have written : ∀ job ∈ firstFiles calls caKey' leafKey' ++
        [lastFile bindIp calls caKey' leafKey'],
        (writeCerts bindIp calls caKey' leafKey' dir).1 job.1 = (job.2 (dir job.1)).1 :=
      fun _ member => writeInTurn_files distinct (opens.first dir) member
    rw [writes]
    cases file with
    | caKey =>
        refine (written (.caKey, _) List.mem_cons_self).trans ?_
        rw [writePemKey_file, overwrite_file, if_pos opens.caKey.1.1]
        rfl
    | caCrt =>
        refine (written (.caCrt, _) (.tail _ List.mem_cons_self)).trans ?_
        rw [writePemCert, overwrite_file, if_pos opens.caCrt.1]
        rfl
    | leafKey =>
        refine (written (.leafKey, _) (.tail _ (.tail _ List.mem_cons_self))).trans ?_
        rw [writePemKey_file, overwrite_file, if_pos opens.leafKey.1.1]
        rfl
    | leafCrt =>
        refine (written (.leafCrt, _) (.tail _ (.tail _ (.tail _ List.mem_cons_self)))).trans ?_
        rw [writePemCert, overwrite_file, if_pos opens.leafCrt]
        rfl
  · exact absurd opens (stops caKey leafKey)

theorem leafLast_run (before : LeafLast dir) : LeafLast (tlsEnsureCerts bindIp calls dir).1 := by
  by_cases absent : dir .leafCrt = .absent
  · intro there file
    obtain ⟨caKey, leafKey, opens⟩ := (run_leafCrt absent).mp there
    rw [run_files absent opens]
    split <;> simp
  · intro _
    rw [run_provisioned (before absent)]
    exact before absent

/-- A run that returns 0 leaves all files. -/
theorem run_done (before : LeafLast dir)
    (done : (tlsEnsureCerts bindIp calls dir).2 = .returned 0) :
    Provisioned (tlsEnsureCerts bindIp calls dir).1 := by
  by_cases all : Provisioned dir
  · rw [run_provisioned all]
    exact all
  · refine leafLast_run before ?_
    have absent : dir .leafCrt = .absent := not_not.mp (mt before all)
    rcases run_cases bindIp calls all with
      ⟨caKey, leafKey, mkdir, keys, writes⟩ | ⟨-, -, failed⟩
    · have distinct := files_distinct bindIp calls caKey leafKey
      rw [writes] at done
      have all := (writeInTurn_done_iff distinct dir).mp done
      obtain ⟨first, second, third⟩ := (firstFiles_done_iff calls caKey leafKey dir).mp
        fun job member => all job (List.mem_append_left _ member)
      have last := all (lastFile bindIp calls caKey leafKey) (by simp)
      exact (run_leafCrt absent).mpr ⟨caKey, leafKey, mkdir, keys, first, second, third,
        ((overwrite_done_iff _ _ _).mp last).1⟩
    · exact absurd done failed

end Run

end SpnavBridge.Daemon
