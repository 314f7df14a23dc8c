import RosGraph.Settings
import RosGraph.Proofs.Enclave
import Mathlib.Data.Bool.AllAny
import Mathlib.Data.List.Forall2

/-! Where the settings look for security files. The name of an enclave may start with slashes, as many
as it likes: they are dropped, so that the path is never an absolute one of its own. All files that are
told of lie behind the keystore's `enclaves`, and what else is told is a key on a hardware token. -/

namespace RosGraph

namespace Text

/-- The name, with each letter of it in either case. -/
def InAnyCase (value name : List Char) : Prop := List.Forall₂ (fun c d => c = d ∨ c = d.toUpper) value name

theorem toLower_cases (c : Char) : c = c.toLower ∨ c = c.toLower.toUpper := by
  -- Only ASCII letters change, of which there are few enough to try.
  have hcheck : ∀ k < 128, Char.ofNat k = (Char.ofNat k).toLower ∨
      Char.ofNat k = (Char.ofNat k).toLower.toUpper := by decide
  by_cases hsmall : c.toNat < 128
  · have hc := hcheck c.toNat hsmall
    rwa [Char.ofNat_toNat] at hc
  · left
    delta Char.toLower
    rw [dif_neg]
    rintro ⟨-, hupper⟩
    exact hsmall (Nat.lt_of_le_of_lt hupper (by decide))

theorem toList_toLower (text : String) : text.toLower.toList = text.toList.map Char.toLower :=
  String.toList_map

theorem map_toLower_eq_iff {value name : List Char}
    (hname : ∀ d ∈ name, d.toLower = d ∧ d.toUpper.toLower = d) :
    value.map Char.toLower = name ↔ InAnyCase value name := by
  constructor
  · rintro rfl
    exact List.forall₂_map_right_iff.2 (List.forall₂_same.2 fun c _ => toLower_cases c)
  · intro h
    induction h with
    | nil => rfl
    | @cons c d value name hc _ ih =>
      obtain ⟨⟨hlower, hupper⟩, hrest⟩ := List.forall_mem_cons.1 hname
      rw [List.map_cons, ih hrest]
      rcases hc with rfl | rfl
      · rw [hlower]
      · rw [hupper]

end Text

namespace Files.Path

variable {left right : String}

/-- One slash comes between a path that does not end with one and a relative path. -/
theorem join_of_relative {c : Char} (hleft : left.toList.getLast? = some c) (hc : c ≠ '/')
    (hright : right.toList.head? ≠ some '/') : join left right = left ++ "/" ++ right := by
  rw [join]
  split
  · next h => exact absurd h hright
  · rw [hleft]
    split
    · next h => contradiction
    · next h => exact absurd (Option.some.inj h) hc
    · rfl

/-- A relative path is added at the end. -/
theorem exists_join_eq_append (left : String) (hright : right.toList.head? ≠ some '/') :
    ∃ slash, join left right = left ++ slash ++ right := by
  rw [join]
  split
  · next h => exact absurd h hright
  · split
    · next h =>
      obtain rfl : left = "" := String.toList_eq_nil_iff.1 (List.getLast?_eq_none_iff.1 h)
      exact ⟨"", rfl⟩
    · exact ⟨"", by rw [String.append_empty]⟩
    · exact ⟨"/", rfl⟩

theorem head?_trimLeadingSlashes (path : String) :
    (trimLeadingSlashes path).toList.head? ≠ some '/' := by
  rw [trimLeadingSlashes, String.toList_ofList]
  intro h
  have hhead := List.head?_dropWhile_not (· = '/') path.toList
  rw [h] at hhead
  simp at hhead

end Files.Path

namespace Enclave

theorem head?_name : ∀ r ∈ required ++ optional, ∀ c ∈ r.candidates, c.name.toList.head? ≠ some '/' := by
  decide

/-- What is told is a key on a hardware token, if those are allowed, or a file below the root. -/
theorem Search.value_cases {s : Search} {found : SortedMap String String} (h : s.result = .ok found)
    {name value : String} (hget : found.get? name = some value) :
    s.tokens = true ∧ IsTokenUri value ∨ ∃ rest, value = s.uriStart ++ (s.root ++ rest) ∧
      ∃ bytes, s.files (s.root ++ rest) = some (.file bytes) := by
  obtain ⟨r, hr, -, before, c, after, hsplit, hprovides, -⟩ := (get?_result_iff h).1 hget
  have hname : c.name.toList.head? ≠ some '/' :=
    head?_name r hr c (by rw [hsplit]; exact List.mem_append_right _ (List.mem_cons_self ..))
  cases hprovides with
  | token htokens _ _ hfirst hscheme => exact .inl ⟨htokens, hscheme, hfirst.solid⟩
  | @file file hfile =>
    obtain ⟨slash, hjoin⟩ := Files.Path.exists_join_eq_append s.root hname
    have hpath : s.pathOf file = s.root ++ (slash ++ file) := by
      rw [pathOf, hjoin, String.append_assoc]
    obtain ⟨bytes, hbytes⟩ := hfile
    exact .inr ⟨slash ++ file, by rw [hpath], bytes, hpath ▸ hbytes⟩

end Enclave

namespace Settings

open Enclave Files Text

variable {vars : Variables} {files : System} {v name : String}

theorem isTrue_iff : isTrue v = true ↔ InAnyCase v.toList "true".toList := by
  have hname : ∀ d ∈ "true".toList, d.toLower = d ∧ d.toUpper.toLower = d := by
    -- Decided letter by letter, not over all characters.
    rw [← List.all_iff_forall_prop]
    decide
  have hlower : "true".toList.map Char.toLower = "true".toList := by decide
  rw [isTrue, matchesName, decide_eq_true_eq, ← String.toList_inj, toList_toLower, toList_toLower, hlower]
  exact map_toLower_eq_iff hname

theorem nonEmpty?_eq_some_iff : vars.nonEmpty? name = some v ↔ vars name = some v ∧ v ≠ "" := by
  rw [Variables.nonEmpty?, Option.filter_eq_some_iff, decide_eq_true_eq]

/-- An empty value is no reason to count as set. -/
theorem any_nonEmpty?_iff {p : String → Bool} (hempty : p "" = false) :
    (vars.nonEmpty? name).any p = true ↔ ∃ v, vars name = some v ∧ p v = true := by
  simp only [Option.any_eq_true, nonEmpty?_eq_some_iff]
  refine exists_congr fun v => ⟨fun ⟨⟨hv, _⟩, hp⟩ => ⟨hv, hp⟩, fun ⟨hv, hp⟩ => ⟨⟨hv, ?_⟩, hp⟩⟩
  rintro rfl
  rw [hempty] at hp
  contradiction

theorem isTrue_empty : isTrue "" = false := by
  rw [Bool.eq_false_iff, ne_eq, isTrue_iff]
  rintro ⟨⟩

/-- The directory of an enclave lies behind the keystore's `enclaves`, however its name begins. -/
theorem join_enclaves (keystore enclave : String) :
    Path.join (Path.join keystore "enclaves") (Path.trimLeadingSlashes enclave) =
      Path.join keystore "enclaves" ++ "/" ++ Path.trimLeadingSlashes enclave := by
  have henclaves : "enclaves".toList.head? ≠ some '/' := by decide
  obtain ⟨slash, hjoin⟩ := Path.exists_join_eq_append keystore henclaves
  have hlast : (Path.join keystore "enclaves").toList.getLast? = some 's' := by
    rw [hjoin, String.toList_append, List.getLast?_append_of_ne_nil _ (by decide)]
    rfl
  exact Path.join_of_relative hlast (by decide) (Path.head?_trimLeadingSlashes enclave)

theorem securitySearch_eq_some_iff {s : Search} :
    (ofVariables vars).securitySearch files = some s ↔
      (∃ v, vars "ROS_SECURITY_ENABLE" = some v ∧ InAnyCase v.toList "true".toList) ∧
      ∃ keystore enclave, (vars "ROS_SECURITY_KEYSTORE" = some keystore ∧ keystore ≠ "") ∧
        (vars "ROS_SECURITY_ENCLAVE" = some enclave ∧ enclave ≠ "") ∧
        s = ⟨files, Path.join keystore "enclaves" ++ "/" ++ Path.trimLeadingSlashes enclave,
          (securityOf vars).uriStart, (securityOf vars).tokens⟩ := by
  simp only [← nonEmpty?_eq_some_iff, ← isTrue_iff, ← any_nonEmpty?_iff isTrue_empty, ← join_enclaves]
  rw [securitySearch, secureRoot, ofVariables]
  by_cases henabled : (vars.nonEmpty? "ROS_SECURITY_ENABLE").any isTrue = true
  · rw [if_pos henabled]
    cases hkeystore : vars.nonEmpty? "ROS_SECURITY_KEYSTORE" with
    | none => simp [securityOf, hkeystore]
    | some keystore =>
      cases henclave : vars.nonEmpty? "ROS_SECURITY_ENCLAVE" with
      | none => simp [securityOf, hkeystore, henclave]
      | some enclave => simp [securityOf, hkeystore, henclave, henabled, eq_comm]
  · rw [if_neg henabled]
    simp [henabled]

theorem tokens_securityOf_iff : (securityOf vars).tokens = true ↔
    ∃ v, vars "HDDS_SECURITY_PKCS11" = some v ∧ (v = "1" ∨ InAnyCase v.toList "true".toList) := by
  have hempty : (decide ("" = "1") || isTrue "") = false := by rw [isTrue_empty]; decide
  rw [securityOf, any_nonEmpty?_iff hempty]
  simp only [Bool.or_eq_true, decide_eq_true_eq, isTrue_iff]

/-- Security files are looked for exactly if security is enabled and the keystore and the enclave are
named. What is told is then a key on a hardware token, if those are allowed, or the path of a file
behind the keystore's `enclaves`, after the configured start of a URI. -/
theorem files_behind_enclaves (vars : Variables) (files : System) :
    let answer := ((ofVariables vars).securitySearch files).map (·.result)
    (answer ≠ none ↔
      (∃ v, vars "ROS_SECURITY_ENABLE" = some v ∧ InAnyCase v.toList "true".toList) ∧
      (∃ keystore, vars "ROS_SECURITY_KEYSTORE" = some keystore ∧ keystore ≠ "") ∧
      ∃ enclave, vars "ROS_SECURITY_ENCLAVE" = some enclave ∧ enclave ≠ "") ∧
    ∀ found, answer = some (.ok found) →
      ∃ keystore, vars "ROS_SECURITY_KEYSTORE" = some keystore ∧
        ∀ name value, found.get? name = some value →
          (IsTokenUri value ∧ ∃ v, vars "HDDS_SECURITY_PKCS11" = some v ∧
            (v = "1" ∨ InAnyCase v.toList "true".toList)) ∨
          ∃ path rest, value = (vars "HDDS_SECURITY_URI_PREFIX").getD "file://" ++ path ∧
            path = Path.join keystore "enclaves" ++ "/" ++ rest ∧
            ∃ bytes, files path = some (.file bytes) := by
  intro answer
  refine ⟨?_, fun found hanswer => ?_⟩
  · rw [Option.ne_none_iff_exists']
    simp only [answer, Option.map_eq_some_iff, securitySearch_eq_some_iff]
    constructor
    · rintro ⟨_, _, ⟨henabled, keystore, enclave, hkeystore, henclave, -⟩, -⟩
      exact ⟨henabled, ⟨keystore, hkeystore⟩, enclave, henclave⟩
    · rintro ⟨henabled, ⟨keystore, hkeystore⟩, enclave, henclave⟩
      exact ⟨_, _, ⟨henabled, keystore, enclave, hkeystore, henclave, rfl⟩, rfl⟩
  · obtain ⟨s, hs, hresult⟩ := Option.map_eq_some_iff.1 hanswer
    obtain ⟨-, keystore, enclave, ⟨hkeystore, -⟩, -, rfl⟩ := securitySearch_eq_some_iff.1 hs
    refine ⟨keystore, hkeystore, fun name value hget => ?_⟩
    rcases Search.value_cases hresult hget with ⟨htokens, htoken⟩ | ⟨rest, hvalue, hfile⟩
    · exact .inl ⟨htoken, tokens_securityOf_iff.1 htokens⟩
    · exact .inr ⟨_, Path.trimLeadingSlashes enclave ++ rest, hvalue, by simp only [String.append_assoc],
        hfile⟩

/-- The name of the enclave is made of slashes, and the start of a URI is set to be empty. -/
theorem files_behind_enclaves_slashes :
    let vars : Variables := fun name => List.lookup name [("ROS_SECURITY_ENABLE", "True"),
      ("ROS_SECURITY_KEYSTORE", "/keys"), ("ROS_SECURITY_ENCLAVE", "//"), ("HDDS_SECURITY_PKCS11", "1"),
      ("HDDS_SECURITY_URI_PREFIX", "")]
    let files : System := fun path => List.lookup path [
      ("/keys/enclaves/identity_ca.cert.pem", .file []), ("/keys/enclaves/cert.pem", .file []),
      ("/keys/enclaves/key.p11", .file "pkcs11:id=1".toUTF8.data.toList),
      ("/keys/enclaves/permissions_ca.cert.pem", .file []),
      ("/keys/enclaves/governance.p7s", .file []), ("/keys/enclaves/permissions.p7s", .file [])]
    let answer := ((ofVariables vars).securitySearch files).map (·.result)
    (∃ v, vars "ROS_SECURITY_ENABLE" = some v ∧ InAnyCase v.toList "true".toList) ∧ answer ≠ none ∧
      ∃ found, answer = some (.ok found) ∧ found.get? "PRIVATE_KEY" = some "pkcs11:id=1" ∧
        found.get? "CERTIFICATE" = some "/keys/enclaves/cert.pem" ∧
        ∃ path rest, "/keys/enclaves/cert.pem" = "" ++ path ∧
          path = Path.join "/keys" "enclaves" ++ "/" ++ rest ∧ ∃ bytes, files path = some (.file bytes) := by
  intro vars files answer
  have henabled : ∃ v, vars "ROS_SECURITY_ENABLE" = some v ∧ InAnyCase v.toList "true".toList :=
    ⟨"True", by decide, .cons (.inr rfl) (.cons (.inl rfl) (.cons (.inl rfl) (.cons (.inl rfl) .nil)))⟩
  have hkeystore : vars "ROS_SECURITY_KEYSTORE" = some "/keys" ∧ "/keys" ≠ "" := by decide
  have henclave : vars "ROS_SECURITY_ENCLAVE" = some "//" ∧ "//" ≠ "" := by decide
  have htokens : (securityOf vars).tokens = true := tokens_securityOf_iff.2 ⟨"1", by decide, .inl rfl⟩
  have hroot : Path.join "/keys" "enclaves" ++ "/" ++ Path.trimLeadingSlashes "//" = "/keys/enclaves/" := by
    decide
  have huri : (securityOf vars).uriStart = "" := by decide
  let search : Search := ⟨files, "/keys/enclaves/", "", true⟩
  have hsearch : (ofVariables vars).securitySearch files = some search :=
    securitySearch_eq_some_iff.2 ⟨henabled, "/keys", "//", hkeystore, henclave, by rw [htokens, hroot, huri]⟩
  have hfound : search.result.toOption.map (fun f => (f.get? "PRIVATE_KEY", f.get? "CERTIFICATE")) =
      some (some "pkcs11:id=1", some "/keys/enclaves/cert.pem") := by decide +kernel
  obtain ⟨hlooks, hvalues⟩ := files_behind_enclaves vars files
  refine ⟨henabled, hlooks.2 ⟨henabled, ⟨_, hkeystore⟩, _, henclave⟩, ?_⟩
  cases hresult : search.result with
  | error e =>
    rw [hresult] at hfound
    contradiction
  | ok found =>
    rw [hresult] at hfound
    obtain ⟨hkey, hcertificate⟩ := Prod.mk.inj (Option.some.inj hfound)
    have hanswer : answer = some (.ok found) := by
      simp only [answer, hsearch, Option.map_some, hresult]
    refine ⟨found, hanswer, hkey, hcertificate, ?_⟩
    obtain ⟨keystore, hset, hall⟩ := hvalues found hanswer
    obtain rfl : "/keys" = keystore := Option.some.inj (hkeystore.1.symm.trans hset)
    rcases hall "CERTIFICATE" _ hcertificate with ⟨htoken, -⟩ | hfile
    · exact absurd htoken.1 (by decide)
    · exact hfile

end Settings

end RosGraph
