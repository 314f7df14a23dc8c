import RosGraph.Error
import RosGraph.Files.System
import RosGraph.Log
import RosGraph.SortedMap
import RosGraph.Text.Blank

/-! The security files of an enclave. Each attribute names the files that can
provide it, best first; the answer holds a URI for each attribute. A key may be
held by a hardware token, which a file then names. -/

namespace RosGraph.Enclave

open Files (System)

inductive Source
  /-- A plain file, referred to by its path. -/
  | file
  /-- A file whose first token is the URI of a key on a hardware token. -/
  | token
deriving DecidableEq, Repr

structure Candidate where
  name : String
  source : Source
deriving DecidableEq, Repr

structure Requirement where
  name : String
  candidates : List Candidate
deriving DecidableEq, Repr

/-- In the order in which they are looked for. -/
def required : List Requirement :=
  [⟨"IDENTITY_CA", [⟨"identity_ca.cert.p11", .token⟩, ⟨"identity_ca.cert.pem", .file⟩]⟩,
    ⟨"CERTIFICATE", [⟨"cert.p11", .token⟩, ⟨"cert.pem", .file⟩]⟩,
    ⟨"PRIVATE_KEY", [⟨"key.p11", .token⟩, ⟨"key.pem", .file⟩]⟩,
    ⟨"PERMISSIONS_CA", [⟨"permissions_ca.cert.p11", .token⟩, ⟨"permissions_ca.cert.pem", .file⟩]⟩,
    ⟨"GOVERNANCE", [⟨"governance.p7s", .file⟩]⟩,
    ⟨"PERMISSIONS", [⟨"permissions.p7s", .file⟩]⟩]

/-- Used if there. -/
def optional : List Requirement := [⟨"CRL", [⟨"crl.pem", .file⟩]⟩]

def tokenScheme : List Char := "pkcs11:".toList

def tokenUri? (fs : System) (path : String) : Option String :=
  match fs.read? path with
  | none => none
  | some text =>
    let uri := Text.Blank.firstToken text.toList
    if tokenScheme.isPrefixOf uri then some (String.ofList uri) else none

/-- How a lookup is made: in which files, under which root, with what in front of
the path of a file, and with or without hardware tokens. -/
structure Search where
  files : System
  root : String
  uriStart : String
  tokens : Bool

namespace Search

variable (s : Search)

def pathOf (name : String) : String := Files.Path.join s.root name

def uri? (c : Candidate) : Option String :=
  match c.source with
  | .file => if s.files.isFile (s.pathOf c.name) then some (s.uriStart ++ s.pathOf c.name) else none
  | .token => if s.tokens then tokenUri? s.files (s.pathOf c.name) else none

/-- The URI of the first candidate that has one. -/
def resolve? (r : Requirement) : Option String := r.candidates.findSome? s.uri?

def resolveRequired : List Requirement → Except Error (List (String × String))
  | [] => .ok []
  | r :: rest => match s.resolve? r with
    | none => .error (.missingSecurityFile r.name)
    | some uri => (resolveRequired rest).map ((r.name, uri) :: ·)

def resolveOptional : List (String × String) :=
  optional.filterMap fun r => (s.resolve? r).map (r.name, ·)

/-- The URI of each attribute, or the first required one that has none. -/
def result : Except Error (SortedMap String String) :=
  (s.resolveRequired required).map fun found => .ofList (found ++ s.resolveOptional)

/-- What a lookup reports of its result. -/
def log : List Log.Record :=
  match s.result with
  | .error (.missingSecurityFile name) =>
    [⟨.warn, s!"[security] no file for {name} in '{s.root}'"⟩]
  | .error _ => []
  | .ok found =>
    [⟨.debug, s!"[security] resolved {found.entries.length} attribute(s) in '{s.root}'"⟩]

end Search

end RosGraph.Enclave
