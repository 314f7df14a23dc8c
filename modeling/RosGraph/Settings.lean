import RosGraph.Enclave

/-! Settings from environment variables. An empty value counts as unset, except
for the start of file URIs, where empty is a choice. -/

namespace RosGraph

structure SecuritySettings where
  keystore : Option String
  enclave : Option String
  tokens : Bool
  uriStart : String
deriving DecidableEq, Repr

structure Settings where
  logLevel : String := "info"
  /-- Absent where security is disabled. -/
  security : Option SecuritySettings := none
deriving DecidableEq, Repr, Inhabited

namespace Settings

/-- Equal up to the case of ASCII letters. -/
def matchesName (value name : String) : Bool := value.toLower = name.toLower

def isTrue (value : String) : Bool := matchesName value "true"

/-- The values of the variables that are set. -/
abbrev Variables := String → Option String

def Variables.nonEmpty? (vars : Variables) (name : String) : Option String :=
  (vars name).filter (· ≠ "")

def securityOf (vars : Variables) : SecuritySettings where
  keystore := vars.nonEmpty? "ROS_SECURITY_KEYSTORE"
  enclave := vars.nonEmpty? "ROS_SECURITY_ENCLAVE"
  tokens := (vars.nonEmpty? "HDDS_SECURITY_PKCS11").any fun v => v = "1" || isTrue v
  uriStart := (vars "HDDS_SECURITY_URI_PREFIX").getD "file://"

def ofVariables (vars : Variables) : Settings where
  logLevel := (vars.nonEmpty? "HDDS_LOG_LEVEL").getD "info"
  security :=
    if (vars.nonEmpty? "ROS_SECURITY_ENABLE").any isTrue then some (securityOf vars) else none

def isCustom (s : Settings) : Bool := s.logLevel ≠ "info" || s.security.isSome

def securityEnabled (s : Settings) : Bool := s.security.isSome

/-- The most detailed level that is logged, `none` for none at all; a value that
names no level stands for `info`. -/
def logThreshold (s : Settings) : Option Log.Level :=
  if matchesName s.logLevel "off" then none
  else if matchesName s.logLevel "error" then some .error
  else if matchesName s.logLevel "warn" then some .warn
  else if matchesName s.logLevel "debug" then some .debug
  else if matchesName s.logLevel "trace" then some .trace
  else some .info

/-- The directory of the enclave, below `enclaves` in the keystore. -/
def secureRoot (s : Settings) : Option String := do
  let security ← s.security
  let keystore ← security.keystore
  let enclave ← security.enclave
  some (Files.Path.join (Files.Path.join keystore "enclaves")
    (Files.Path.trimLeadingSlashes enclave))

/-- The lookup of the security files that the settings ask for, if they do. -/
def securitySearch (s : Settings) (files : Files.System) : Option Enclave.Search := do
  let security ← s.security
  let root ← s.secureRoot
  some ⟨files, root, security.uriStart, security.tokens⟩

end Settings

end RosGraph
