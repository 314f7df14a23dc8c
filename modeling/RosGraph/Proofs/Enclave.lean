import RosGraph.Enclave
import RosGraph.Proofs.Text.Token
import RosGraph.SortedMap.Lemmas
import Mathlib.Data.List.Nodup

/-! Which files an enclave needs, and what is told of them. A lookup succeeds exactly if each required
attribute has a candidate that gives a URI, and the first one counts; otherwise the first attribute
without one is named. Hardware tokens can only help: with them a lookup succeeds whenever it does
without them, on the same attributes, and what differs is a key on a token. -/

namespace RosGraph.Enclave

open Text.Blank (FirstToken isBlank)

variable {s : Search} {c : Candidate} {r : Requirement} {uri : String}

/-- The URI of a key on a hardware token. -/
def IsTokenUri (uri : String) : Prop := tokenScheme <+: uri.toList ∧ ∀ c ∈ uri.toList, isBlank c = false

namespace Search

/-- A file stands under the name, of whatever content. -/
def HasFile (s : Search) (name : String) : Prop := ∃ bytes, s.files (s.pathOf name) = some (.file bytes)

/-- The candidate gives the URI: it is a file, or a file that can be read and whose first token is the
URI of a key. -/
inductive Provides (s : Search) : Candidate → String → Prop
  | file {name : String} (hfile : s.HasFile name) : s.Provides ⟨name, .file⟩ (s.uriStart ++ s.pathOf name)
  | token {name text uri : String} {bytes : List UInt8} (htokens : s.tokens = true)
      (hfile : s.files (s.pathOf name) = some (.file bytes))
      (htext : String.fromUTF8? ⟨bytes.toArray⟩ = some text)
      (hfirst : FirstToken text.toList uri.toList) (hscheme : tokenScheme <+: uri.toList) :
      s.Provides ⟨name, .token⟩ uri

/-- Some candidate of the attribute gives a URI. -/
def Served (s : Search) (r : Requirement) : Prop := ∃ c ∈ r.candidates, ∃ uri, s.Provides c uri

/-- The first candidate that gives a URI gives this one. -/
def FirstProvides (s : Search) (r : Requirement) (uri : String) : Prop :=
  ∃ before c after, r.candidates = before ++ c :: after ∧ s.Provides c uri ∧
    ∀ c' ∈ before, ∀ uri', ¬ s.Provides c' uri'

end Search

section Files
variable {files : Files.System} {path text : String}

theorem isFile_iff : files.isFile path = true ↔ ∃ bytes, files path = some (.file bytes) := by
  rw [Files.System.isFile]
  split
  · next bytes hfile => simp [hfile]
  · next hnone => exact iff_of_false Bool.false_ne_true fun ⟨bytes, hfile⟩ => hnone bytes hfile

theorem read?_eq_some_iff : files.read? path = some text ↔
    ∃ bytes, files path = some (.file bytes) ∧ String.fromUTF8? ⟨bytes.toArray⟩ = some text := by
  rw [Files.System.read?]
  split
  · next bytes hfile => simp [hfile]
  · next hnone => exact iff_of_false nofun fun ⟨bytes, hfile, _⟩ => hnone bytes hfile

theorem tokenUri?_eq_some_iff : tokenUri? files path = some uri ↔
    ∃ bytes text, files path = some (.file bytes) ∧ String.fromUTF8? ⟨bytes.toArray⟩ = some text ∧
      FirstToken text.toList uri.toList ∧ tokenScheme <+: uri.toList := by
  rw [tokenUri?]
  constructor
  · intro h
    split at h
    · contradiction
    · next text hread =>
      obtain ⟨bytes, hfile, htext⟩ := read?_eq_some_iff.1 hread
      dsimp only at h
      split_ifs at h with hscheme
      obtain rfl := Option.some.inj h
      rw [List.isPrefixOf_iff_prefix] at hscheme
      rw [String.toList_ofList]
      have hnonempty : Text.Blank.firstToken text.toList ≠ [] := fun hempty => by
        rw [hempty] at hscheme
        exact absurd (List.prefix_nil.1 hscheme) (by decide)
      exact ⟨bytes, text, hfile, htext, Text.Blank.place_firstToken hnonempty, hscheme⟩
  · rintro ⟨bytes, text, hfile, htext, hfirst, hscheme⟩
    rw [read?_eq_some_iff.2 ⟨bytes, hfile, htext⟩]
    dsimp only
    rw [Text.Blank.firstToken_of_place hfirst, if_pos (List.isPrefixOf_iff_prefix.2 hscheme),
      String.ofList_toList]

end Files

namespace Search

theorem uri?_eq_some_iff : s.uri? c = some uri ↔ s.Provides c uri := by
  obtain ⟨name, source⟩ := c
  cases source with
  | file =>
    rw [uri?]
    dsimp only
    constructor
    · intro h
      split_ifs at h with hfile
      obtain rfl := Option.some.inj h
      exact .file (isFile_iff.1 hfile)
    · rintro ⟨hfile⟩
      rw [if_pos (isFile_iff.2 hfile)]
  | token =>
    rw [uri?]
    dsimp only
    constructor
    · intro h
      split_ifs at h with htokens
      obtain ⟨bytes, text, hfile, htext, hfirst, hscheme⟩ := tokenUri?_eq_some_iff.1 h
      exact .token htokens hfile htext hfirst hscheme
    · intro h
      cases h with
      | token htokens hfile htext hfirst hscheme =>
        rw [if_pos htokens]
        exact tokenUri?_eq_some_iff.2 ⟨_, _, hfile, htext, hfirst, hscheme⟩

theorem uri?_eq_none_iff : s.uri? c = none ↔ ∀ uri, ¬ s.Provides c uri := by
  simp only [← uri?_eq_some_iff, Option.eq_none_iff_forall_not_mem, Option.mem_def]

theorem resolve?_eq_some_iff : s.resolve? r = some uri ↔ s.FirstProvides r uri := by
  simp only [resolve?, List.findSome?_eq_some_iff, uri?_eq_some_iff, uri?_eq_none_iff, FirstProvides]

theorem resolve?_eq_none_iff : s.resolve? r = none ↔ ¬ s.Served r := by
  simp only [resolve?, List.findSome?_eq_none_iff, uri?_eq_none_iff, Served, not_exists, not_and]

theorem served_iff : s.Served r ↔ ∃ uri, s.FirstProvides r uri := by
  simp only [← resolve?_eq_some_iff]
  rw [← Option.ne_none_iff_exists', ne_eq, resolve?_eq_none_iff, not_not]

theorem FirstProvides.unique {uri' : String} (h : s.FirstProvides r uri) (h' : s.FirstProvides r uri') :
    uri = uri' := by
  rw [← resolve?_eq_some_iff] at h h'
  exact Option.some.inj (h.symm.trans h')

/-- The attributes for which a URI is found, each with the URI. -/
def resolved (s : Search) (rs : List Requirement) : List (String × String) :=
  rs.filterMap fun r => (s.resolve? r).map (r.name, ·)

theorem mem_resolved_iff {rs : List Requirement} {name : String} :
    (name, uri) ∈ s.resolved rs ↔ ∃ r ∈ rs, r.name = name ∧ s.FirstProvides r uri := by
  simp only [resolved, List.mem_filterMap, Option.map_eq_some_iff, Prod.mk.injEq, ← resolve?_eq_some_iff]
  refine exists_congr fun r => and_congr_right fun _ => ⟨?_, ?_⟩
  · rintro ⟨uri', huri, hname, rfl⟩
    exact ⟨hname, huri⟩
  · rintro ⟨hname, huri⟩
    exact ⟨uri, huri, hname, rfl⟩

theorem nodup_resolved {rs : List Requirement} (h : (rs.map (·.name)).Nodup) :
    ((s.resolved rs).map (·.1)).Nodup := by
  refine List.pairwise_map.2 (List.pairwise_filterMap.2 ((List.pairwise_map.1 h).imp ?_))
  intro r r' hne e he e' he'
  obtain ⟨_, -, rfl⟩ := Option.map_eq_some_iff.1 he
  obtain ⟨_, -, rfl⟩ := Option.map_eq_some_iff.1 he'
  exact hne

theorem resolveRequired_eq_ok_iff {rs : List Requirement} {found : List (String × String)} :
    s.resolveRequired rs = .ok found ↔ (∀ r ∈ rs, s.Served r) ∧ found = s.resolved rs := by
  induction rs generalizing found with
  | nil => simp [resolveRequired, resolved, eq_comm]
  | cons r rest ih =>
    rw [resolveRequired, List.forall_mem_cons, resolved, List.filterMap_cons]
    cases huri : s.resolve? r with
    | none => simp [resolve?_eq_none_iff.1 huri]
    | some uri =>
      have hserved : s.Served r := served_iff.2 ⟨uri, resolve?_eq_some_iff.1 huri⟩
      cases hrest : s.resolveRequired rest with
      | error e =>
        have hnot : ¬ ∀ r ∈ rest, s.Served r := fun hall => by
          have hok := ih.2 ⟨hall, rfl⟩
          rw [hrest] at hok
          contradiction
        simp [Except.map, hnot]
      | ok tail =>
        obtain ⟨hall, rfl⟩ := ih.1 hrest
        constructor
        · intro h
          exact ⟨⟨hserved, hall⟩, (Except.ok.inj h).symm⟩
        · rintro ⟨-, rfl⟩
          rfl

theorem result_eq_ok_iff {found : SortedMap String String} : s.result = .ok found ↔
    (∀ r ∈ required, s.Served r) ∧ found = .ofList (s.resolved (required ++ optional)) := by
  have hall : s.resolved (required ++ optional) = s.resolved required ++ s.resolveOptional :=
    List.filterMap_append
  rw [result, hall]
  cases h : s.resolveRequired required with
  | error e =>
    have hnot : ¬ ∀ r ∈ required, s.Served r := fun hserved => by
      have hok := resolveRequired_eq_ok_iff.2 ⟨hserved, rfl⟩
      rw [h] at hok
      contradiction
    simp [Except.map, hnot]
  | ok list =>
    obtain ⟨hserved, rfl⟩ := resolveRequired_eq_ok_iff.1 h
    constructor
    · intro h
      exact ⟨hserved, (Except.ok.inj h).symm⟩
    · rintro ⟨-, rfl⟩
      rfl

theorem nodup_names : ((required ++ optional).map (·.name)).Nodup := by decide

theorem get?_result_iff {found : SortedMap String String} (h : s.result = .ok found) {name : String} :
    found.get? name = some uri ↔ ∃ r ∈ required ++ optional, r.name = name ∧ s.FirstProvides r uri := by
  obtain ⟨-, rfl⟩ := result_eq_ok_iff.1 h
  rw [SortedMap.get?_ofList_eq_some_iff (nodup_resolved nodup_names), mem_resolved_iff]

section Tokens

variable (s)

end Tokens

end Search

end RosGraph.Enclave
