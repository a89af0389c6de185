/-
# Daemon.StartUp -- the command line, the state directory and the saved sensitivity

`main` up to the point where it settles on a sensitivity.  What comes behind it and may end
the process as well (certificates, spacenavd, the socket) is left out, so that a start-up
that is not refused here is one that may reach the main loop.

* `startUp_inRange`: wherever the sensitivity comes from, it is in range.
-/
import SpnavBridge.Kernel.Gain

namespace SpnavBridge.Daemon

open SpnavBridge.Theory SpnavBridge.Kernel

set_option autoImplicit false

/-! ## The system -/

/-- What `strtof` makes of a text: the value, whether it sets `errno`, and how many bytes are
in front of `end`. -/
structure Strtof (F : Type) where
  value : F
  erange : Bool
  used : Nat

structure System (F : Type) where
  getenv : CStr → Option CStr
  strtof : CStr → Strtof F
  /-- the bytes at a path, when it can be opened for reading -/
  files : CStr → Option (List UInt8)

/-- The line that `fgets(line, cap + 1, fp)` reads first, `none` at the end of the file. -/
def fgets (cap : Nat) (content : List UInt8) : Option (CBuf cap) :=
  if content = [] then none
  else some (.printf cap (.ofBytes
    (content.takeWhile (· ≠ 10) ++ (content.dropWhile (· ≠ 10)).take 1)))

variable {F : Type} [CFloat F] (sys : System F)

/-! ## The state directory -/

/-- An environment variable that is set to something. -/
def variableSet (name : String) : Option CStr := (sys.getenv (.lit name)).filter (· ≠ .empty)

def defaultStateDir : CBuf 511 :=
  match variableSet sys "STATE_DIRECTORY" with
  | some systemdState => .printf 511 systemdState
  | none =>
      match variableSet sys "XDG_DATA_HOME" with
      | some xdg => .printf 511 (xdg.append (.lit "/spnav-onshape-bridge"))
      | none =>
          match variableSet sys "HOME" with
          | some home => .printf 511 (home.append (.lit "/.local/share/spnav-onshape-bridge"))
          | none => .printf 511 (.lit "/tmp/spnav-onshape-bridge")

def sensitivityConfPath (gStateDir : CBuf 511) : CBuf 599 :=
  .printf 599 (gStateDir.str.append (.lit "/sensitivity.conf"))

/-- The value that `load_persisted_sensitivity` assigns, if any.  What follows the number on
the line is not looked at. -/
def loadPersistedSensitivity (gStateDir : CBuf 511) : Option F :=
  match (sys.files (sensitivityConfPath gStateDir).str).bind (fgets 63) with
  | none => none
  | some line =>
      let read := sys.strtof line.str
      -- on a finite value `>=` and `<=` are what `<` and `>` are not
      if !read.erange && read.used ≠ 0 && CFloat.isfinite read.value
          && !CFloat.lt read.value (CFloat.lit (1 / 100))
          && !CFloat.lt (CFloat.lit 10) read.value then some read.value
      else none

/-! ## The command line -/

/-- The local variables of `main`, and `g_verbose` and `g_sensitivity`. -/
structure Options (F : Type) where
  host : CStr
  port : Int
  stateDir : CStr
  doctorRequested : Bool
  verbose : Bool
  sensitivity : F
  sensitivityFromCli : Bool

def Options.default : Options F where
  host := .lit "127.51.68.120"
  port := 8181
  stateDir := (defaultStateDir sys).str
  doctorRequested := false
  verbose := false
  sensitivity := defaultSensitivity
  sensitivityFromCli := false

/-- The value of `--port`.  One that sets `errno` is out of range, too. -/
def portOption (value : CStr) : Option Int :=
  let digits := match value.bytes.dropWhile isspace with
    | 45 :: digits => digits
    | 43 :: digits => digits
    | digits => digits
  let port := strtol value
  if digits = [] ∨ !digits.all isdigit ∨ port < 1 ∨ port > 65535 then none else some port

/-- The value of `--sensitivity`. -/
def sensitivityOption (value : CStr) : Option F :=
  let read := sys.strtof value
  if read.erange || read.used = 0 || value.bytes.drop read.used ≠ []
      || !CFloat.isfinite read.value || CFloat.lt read.value (CFloat.lit (1 / 100))
      || CFloat.lt (CFloat.lit 10) read.value then none
  else some read.value

/-- An argument that stands alone.  `--help` ends the process, as an unknown one does. -/
def flagOption (opts : Options F) (arg : CStr) : Option (Options F) :=
  if arg = .lit "--doctor" then some { opts with doctorRequested := true }
  else if arg = .lit "--verbose" then some { opts with verbose := true }
  else none

/-- The loop over `argv[1 ..]`, `none` where `main` returns. -/
def parseArguments (opts : Options F) : List CStr → Option (Options F)
  | [] => some opts
  | [arg] => flagOption opts arg
  | arg :: value :: rest =>
      if arg = .lit "--host" then parseArguments { opts with host := value } rest
      else if arg = .lit "--port" then
        match portOption value with
        | none => none
        | some port => parseArguments { opts with port } rest
      else if arg = .lit "--sensitivity" then
        match sensitivityOption sys value with
        | none => none
        | some sensitivity =>
            parseArguments { opts with sensitivity, sensitivityFromCli := true } rest
      else if arg = .lit "--state-dir" then
        parseArguments { opts with stateDir := value } rest
      else
        match flagOption opts arg with
        | none => none
        | some opts => parseArguments opts (value :: rest)

/-- A saved value counts only if the command line gives none. -/
def startUp (argv : List CStr) : Option (Options F) :=
  match parseArguments sys (.default sys) argv with
  | none => none
  | some opts =>
      let loaded : Option F := if opts.sensitivityFromCli then none
        else loadPersistedSensitivity sys (.printf 511 opts.stateDir)
      if opts.doctorRequested then none
      else some { opts with sensitivity := loaded.getD opts.sensitivity }

/-! ## What start-up takes -/

variable {sys}

theorem loadPersistedSensitivity_inRange {gStateDir : CBuf 511} {value : F}
    (loaded : loadPersistedSensitivity sys gStateDir = some value) : InRange value := by
  unfold loadPersistedSensitivity at loaded
  split at loaded
  · cases loaded
  · dsimp only at loaded
    split_ifs at loaded with taken
    injection loaded with same
    simp only [Bool.and_eq_true, Bool.not_eq_true'] at taken
    rw [← same]
    exact ⟨taken.1.1.2, taken.1.2, taken.2⟩

theorem sensitivityOption_inRange {text : CStr} {value : F}
    (taken : sensitivityOption sys text = some value) : InRange value := by
  unfold sensitivityOption at taken
  dsimp only at taken
  split_ifs at taken with refused
  injection taken with same
  simp only [Bool.or_eq_true, not_or, Bool.not_eq_true, Bool.not_eq_false'] at refused
  rw [← same]
  exact ⟨refused.1.1.2, refused.1.2, refused.2⟩

omit [CFloat F] in
theorem flagOption_sensitivity {opts opts' : Options F} {arg : CStr}
    (parsed : flagOption opts arg = some opts') : opts'.sensitivity = opts.sensitivity := by
  unfold flagOption at parsed
  split_ifs at parsed
  · injection parsed with same
    rw [← same]
  · injection parsed with same
    rw [← same]

theorem parseArguments_inRange {opts opts' : Options F} {argv : List CStr}
    (start : InRange opts.sensitivity) (parsed : parseArguments sys opts argv = some opts') :
    InRange opts'.sensitivity := by
  fun_induction parseArguments sys opts argv with
  | case1 opts =>
      injection parsed with same
      rw [← same]
      exact start
  | case2 opts arg =>
      rw [flagOption_sensitivity parsed]
      exact start
  | case3 opts value rest ih => exact ih start parsed
  | case4 => cases parsed
  | case5 opts value rest port found notHost ih => exact ih start parsed
  | case6 => cases parsed
  | case7 opts value rest sensitivity taken notHost notPort ih =>
      exact ih (sensitivityOption_inRange taken) parsed
  | case8 opts value rest notHost notPort notSensitivity ih => exact ih start parsed
  | case9 => cases parsed
  | case10 opts arg value rest notHost notPort notSensitivity notStateDir opts' flag ih =>
      refine ih ?_ parsed
      rw [flagOption_sensitivity flag]
      exact start

/-- **The sensitivity the main loop starts with is in range.** -/
theorem startUp_inRange (initial : InRange (defaultSensitivity : F)) {argv : List CStr}
    {opts : Options F} (started : startUp sys argv = some opts) : InRange opts.sensitivity := by
  unfold startUp at started
  split at started
  · cases started
  · rename_i opts' parsed
    have range : InRange opts'.sensitivity := parseArguments_inRange initial parsed
    dsimp only at started
    split_ifs at started with doctor fromCli
    · injection started with same
      rw [← same]
      exact range
    · injection started with same
      rw [← same]
      show InRange (Option.getD _ _)
      cases loaded : loadPersistedSensitivity sys (.printf 511 opts'.stateDir) with
      | none => exact range
      | some value => exact loadPersistedSensitivity_inRange loaded

theorem startUp_of_loaded {argv : List CStr} {opts : Options F} {value : F}
    (parsed : parseArguments sys (.default sys) argv = some opts)
    (silent : opts.sensitivityFromCli = false) (runs : opts.doctorRequested = false)
    (loaded : loadPersistedSensitivity sys (.printf 511 opts.stateDir) = some value) :
    startUp sys argv = some { opts with sensitivity := value } := by
  unfold startUp
  rw [parsed]
  dsimp only
  rw [silent, runs, loaded]
  rfl

end SpnavBridge.Daemon
