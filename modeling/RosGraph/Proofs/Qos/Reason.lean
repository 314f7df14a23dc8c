import RosGraph.Proofs.Qos.Findings
import RosGraph.Proofs.Text.Entries
import Mathlib.Data.List.ProdSigma

/-! What a reason says. Its text has one closed entry for each finding, which starts with the name of
the verdict. Warnings are made of phrases and of the names of settings: no phrase starts another one,
and a name is one word, so that an entry tells the finding. Hence a reason tells all findings, and two
pairs have the same reason exactly if the same is found on every policy. -/

namespace RosGraph.Qos

open Policy Text

/-- The word that entries start with under a verdict. -/
def Verdict.label : Verdict → String
  | ok => ""
  | warning => "WARNING:"
  | error => "ERROR:"

theorem Verdict.eq_of_label_isPrefix {v v' : Verdict} (hv : v ≠ .ok) (hv' : v' ≠ .ok)
    (h : v.label.toList <+: v'.label.toList) : v = v' := by
  revert hv hv' h
  cases v <;> cases v' <;> decide

section Names

/-- The names of settings are single words, and tell the settings. -/
structure Names {Setting : Type} (name : Setting → String) : Prop where
  plain (x : Setting) : Plain (name x).toList
  word (x : Setting) : ' ' ∉ (name x).toList
  injective : Function.Injective name

theorem names_reliability : Names Reliability.text where
  plain x := by cases x <;> exact plain_ofList (by decide)
  word x := by cases x <;> decide
  injective x y := by cases x <;> cases y <;> decide

theorem names_durability : Names Durability.text where
  plain x := by cases x <;> exact plain_ofList (by decide)
  word x := by cases x <;> decide
  injective x y := by cases x <;> cases y <;> decide

theorem names_liveliness : Names Liveliness.text where
  plain x := by cases x <;> exact plain_ofList (by decide)
  word x := by cases x <;> decide
  injective x y := by cases x <;> cases y <;> decide

end Names

section Words

/-- Which settings a warning names. -/
inductive Form
  | both
  | offer
  | request
deriving DecidableEq

def Form.all : List Form := [.both, .offer, .request]

theorem Form.mem_all (k : Form) : k ∈ all := by cases k <;> decide

def Doubt.form {Setting : Type} : Doubt Setting → Form
  | both _ _ => .both
  | offer _ => .offer
  | request _ => .request

/-- The policies that warnings are about. -/
def graded : List Policy := [.reliability, .durability, .liveliness]

/-- What a warning says before it names a setting. Periods have no warnings. -/
def phrase : Policy → Form → String
  | .reliability, .both => "WARNING: Publisher reliability is "
  | .reliability, .offer => "WARNING: Reliable subscription, but publisher is "
  | .reliability, .request => "WARNING: Best effort publisher, but subscription is "
  | .durability, .both => "WARNING: Publisher durability is "
  | .durability, .offer => "WARNING: Transient local subscription, but publisher is "
  | .durability, .request => "WARNING: Volatile publisher, but subscription is "
  | .liveliness, .both => "WARNING: Publisher liveliness is "
  | .liveliness, .offer =>
    "WARNING: Subscription's liveliness is manual by topic, but publisher's is "
  | .liveliness, .request => "WARNING: Publisher's liveliness is automatic, but subscription's is "
  | .deadline, _ | .lease, _ => "WARNING: "

/-- What a warning says between two names. -/
def between : Policy → String
  | .reliability => " and subscription reliability is "
  | .durability => " and subscription durability is "
  | .liveliness => " and subscription liveliness is "
  | .deadline | .lease => " "

theorem plain_phrase (f : Policy) (k : Form) : Plain (phrase f k).toList := by
  cases f <;> cases k <;> exact plain_ofList (by decide)

theorem label_isPrefix_phrase (f : Policy) (k : Form) :
    Verdict.warning.label.toList <+: (phrase f k).toList := by
  cases f <;> cases k <;> exact isPrefix_ofList (by decide)

theorem phrases_apart : ((graded ×ˢ Form.all).map fun x => phrase x.1 x.2).Pairwise
    fun a b => Apart a.toList b.toList :=
  @pairwise_apart_ofList [_, _, _, _, _, _, _, _, _] (by decide)

/-- No phrase starts another one. -/
theorem phrase_apart {f f' : Policy} {k k' : Form} (hf : f ∈ graded) (hf' : f' ∈ graded)
    (hne : (f, k) ≠ (f', k')) : Apart (phrase f k).toList (phrase f' k').toList :=
  @apart_of_ne (Policy × Form) (fun x => phrase x.1 x.2) _ phrases_apart (f, k) (f', k')
    (List.mem_product.2 ⟨hf, k.mem_all⟩) (List.mem_product.2 ⟨hf', k'.mem_all⟩) hne

theorem plain_between (f : Policy) : Plain (between f).toList := by
  cases f <;> exact plain_ofList (by decide)

theorem exists_between_eq_cons (f : Policy) : ∃ rest, (between f).toList = ' ' :: rest := by
  cases f <;> exact ⟨_, String.toList_ofList⟩

variable {Setting : Type}

/-- What follows the phrase in a warning, up to its end. -/
def named (f : Policy) (name : Setting → String) : Doubt Setting → String
  | .both offered requested => name offered ++ between f ++ name requested
  | .offer offered => name offered
  | .request requested => name requested

variable {f : Policy} {name : Setting → String} (h : Names name)
include h

theorem Names.plain_named (d : Doubt Setting) : Plain (named f name d).toList := by
  cases d with
  | both offered requested =>
    rw [named, String.toList_append, String.toList_append, plain_append, plain_append]
    exact ⟨⟨h.plain offered, plain_between f⟩, h.plain requested⟩
  | offer offered => exact h.plain offered
  | request requested => exact h.plain requested

/-- The first of two names ends at the first blank. -/
theorem Names.eq_of_append_blank {x y : Setting} {u v : List Char}
    (heq : (name x).toList ++ ' ' :: u = (name y).toList ++ ' ' :: v) : x = y ∧ u = v := by
  have hsplit := congrArg (List.splitOn ' ') heq
  rw [List.splitOn_append_cons_self_of_not_mem (h.word x),
    List.splitOn_append_cons_self_of_not_mem (h.word y)] at hsplit
  have hxy : x = y := h.injective (String.toList_inj.1 (List.cons.inj hsplit).1)
  rw [hxy] at heq
  exact ⟨hxy, (List.cons.inj (List.append_cancel_left heq)).2⟩

theorem Names.eq_of_named {d d' : Doubt Setting} (hform : d.form = d'.form)
    (heq : named f name d = named f name d') : d = d' := by
  cases d with
  | both o r =>
    cases d' with
    | both o' r' =>
      obtain ⟨rest, hrest⟩ := exists_between_eq_cons f
      rw [named, named, ← String.toList_inj] at heq
      simp only [String.toList_append, hrest, List.append_assoc, List.cons_append] at heq
      obtain ⟨rfl, hr⟩ := h.eq_of_append_blank heq
      rw [h.injective (String.toList_inj.1 (List.append_cancel_left hr))]
    | offer => contradiction
    | request => contradiction
  | offer o =>
    cases d' with
    | offer o' => rw [h.injective heq]
    | both => contradiction
    | request => contradiction
  | request r =>
    cases d' with
    | request r' => rw [h.injective heq]
    | both => contradiction
    | offer => contradiction

end Words

namespace Warning

def form : Warning → Form
  | reliability d => d.form
  | durability d => d.form
  | liveliness d => d.form

/-- What the text says after the phrase. -/
def names : Warning → String
  | reliability d => named .reliability Reliability.text d
  | durability d => named .durability Durability.text d
  | liveliness d => named .liveliness Liveliness.text d

theorem text_eq (w : Warning) : w.text = phrase w.policy w.form ++ w.names ++ ";" := by
  -- Only two names and the words between them are put together in another order.
  have hboth {Setting : Type} (f : Policy) (name : Setting → String) (o r : Setting) :
      phrase f .both ++ name o ++ between f ++ name r ++ ";" =
        phrase f .both ++ named f name (.both o r) ++ ";" := by
    simp only [named, String.append_assoc]
  cases w with
  | reliability d =>
    cases d with
    | both o r => exact hboth .reliability Reliability.text o r
    | offer | request => rfl
  | durability d =>
    cases d with
    | both o r => exact hboth .durability Durability.text o r
    | offer | request => rfl
  | liveliness d =>
    cases d with
    | both o r => exact hboth .liveliness Liveliness.text o r
    | offer | request => rfl

theorem toList_text (w : Warning) :
    w.text.toList = (phrase w.policy w.form).toList ++ w.names.toList ++ [';'] := by
  rw [text_eq, String.toList_append, String.toList_append]
  rfl

theorem plain_names (w : Warning) : Plain w.names.toList := by
  cases w with
  | reliability d => exact names_reliability.plain_named d
  | durability d => exact names_durability.plain_named d
  | liveliness d => exact names_liveliness.plain_named d

theorem policy_mem_graded (w : Warning) : w.policy ∈ graded := by
  cases w <;> simp [policy, graded]

theorem text_injective : Function.Injective text := by
  intro w w' h
  rw [← String.toList_inj, toList_text, toList_text, List.append_assoc, List.append_assoc] at h
  have hphrase : (w.policy, w.form) = (w'.policy, w'.form) := by
    by_contra hne
    obtain ⟨hnot, hnot'⟩ := phrase_apart w.policy_mem_graded w'.policy_mem_graded hne
    have hstart := List.prefix_append (phrase w.policy w.form).toList (w.names.toList ++ [';'])
    rw [h] at hstart
    rcases List.prefix_or_prefix_of_prefix hstart (List.prefix_append _ _) with hp | hp
    · exact hnot hp
    · exact hnot' hp
  obtain ⟨hpolicy, hform⟩ := Prod.mk.inj hphrase
  rw [hpolicy, hform] at h
  have hnames : w.names = w'.names :=
    String.toList_inj.1 (List.append_cancel_right (List.append_cancel_left h))
  cases w with
  | reliability d =>
    cases w' with
    | reliability d' => rw [names_reliability.eq_of_named hform hnames]
    | durability => contradiction
    | liveliness => contradiction
  | durability d =>
    cases w' with
    | durability d' => rw [names_durability.eq_of_named hform hnames]
    | reliability => contradiction
    | liveliness => contradiction
  | liveliness d =>
    cases w' with
    | liveliness d' => rw [names_liveliness.eq_of_named hform hnames]
    | reliability => contradiction
    | durability => contradiction

end Warning

namespace Conflict

def all : List Conflict :=
  [reliability, durability, deadline .missing, deadline .tooLong, liveliness, lease .missing,
    lease .tooLong]

theorem mem_all (c : Conflict) : c ∈ all := by
  rcases c with _ | _ | ⟨_ | _⟩ | _ | ⟨_ | _⟩ <;> decide

theorem texts_apart : (all.map text).Pairwise fun a b => Apart a.toList b.toList :=
  @pairwise_apart_ofList [_, _, _, _, _, _, _] (by decide)

theorem text_injective : Function.Injective text := by
  intro c c' h
  by_contra hne
  obtain ⟨hnot, -⟩ := apart_of_ne texts_apart c.mem_all c'.mem_all hne
  rw [h] at hnot
  exact hnot (List.prefix_refl _)

end Conflict

namespace Finding

/-- The text of a finding is an entry under the verdict that comes with it. -/
theorem entry_text (x : Finding) : Entry x.verdict.label x.text := by
  cases x with
  | conflict c =>
    rcases c with _ | _ | ⟨_ | _⟩ | _ | ⟨_ | _⟩ <;>
      exact entry_ofList (by decide) (by decide) (by decide)
  | warning w =>
    exact entry_of_append w.toList_text (plain_phrase _ _) w.plain_names (label_isPrefix_phrase _ _)

theorem verdict_ne_ok (x : Finding) : x.verdict ≠ .ok := by
  cases x <;> simp [verdict]

theorem verdict_eq_of_text {x y : Finding} (h : x.text = y.text) : x.verdict = y.verdict := by
  have hx := x.entry_text.labelled
  have hy := y.entry_text.labelled
  rw [← h] at hy
  rcases List.prefix_or_prefix_of_prefix hx hy with hp | hp
  · exact Verdict.eq_of_label_isPrefix x.verdict_ne_ok y.verdict_ne_ok hp
  · exact (Verdict.eq_of_label_isPrefix y.verdict_ne_ok x.verdict_ne_ok hp).symm

theorem text_injective : Function.Injective text := by
  intro x y h
  have hverdict := verdict_eq_of_text h
  cases x with
  | conflict c =>
    cases y with
    | conflict c' => rw [Conflict.text_injective h]
    | warning => contradiction
  | warning w =>
    cases y with
    | warning w' => rw [Warning.text_injective h]
    | conflict => contradiction

theorem body_injective : Function.Injective fun x : Finding => body x.text := by
  intro x y h
  refine text_injective (String.toList_inj.1 ?_)
  rw [x.entry_text.closed, y.entry_text.closed, show body x.text = body y.text from h]

end Finding

section Reason
variable {p s p' s' : Profile}

/-- A reason is made of the texts of the findings. -/
theorem toList_reason :
    (reason p s).toList = ((findings p s).map fun x => body x.text).flatMap (· ++ [';']) := by
  rw [reason, reasons_eq_map_findings, String.toList_join, List.flatMap_map, List.flatMap_map]
  exact List.flatMap_congr fun x _ => x.entry_text.closed

theorem plain_of_mem_findings : ∀ e ∈ (findings p s).map fun x => body x.text, Plain e := by
  intro e he
  obtain ⟨x, -, rfl⟩ := List.mem_map.1 he
  exact x.entry_text.plain

theorem splitOn_reason :
    (reason p s).toList.splitOn ';' = (findings p s).map (fun x => body x.text) ++ [[]] := by
  rw [toList_reason, splitOn_closed plain_of_mem_findings]

/-- A reason tells the findings. -/
theorem reason_eq_iff_findings : reason p s = reason p' s' ↔ findings p s = findings p' s' := by
  constructor
  · intro h
    have hsplit := congrArg (fun t => t.toList.splitOn ';') h
    simp only [splitOn_reason] at hsplit
    exact Finding.body_injective.list_map (List.append_cancel_right hsplit)
  · intro h
    rw [← String.toList_inj, toList_reason, toList_reason, h]

theorem reason_eq_empty_iff : reason p s = "" ↔ verdict p s = .ok := by
  refine ⟨fun h => ?_, reason_of_ok⟩
  by_contra hv
  obtain ⟨f, x, hx⟩ := exists_finding hv
  have hmem : body x.text ∈ (findings p s).map fun x => body x.text :=
    List.mem_map_of_mem (List.mem_filterMap.2 ⟨f, f.mem_all, hx⟩)
  rw [← String.toList_eq_nil_iff, toList_reason, List.flatMap_eq_nil_iff] at h
  exact List.append_ne_nil_of_right_ne_nil _ (List.cons_ne_nil _ _) (h _ hmem)

end Reason

/-- A reason reports exactly the rules that are violated or, where none is, those in doubt. It is ASCII
text without a zero character, and empty only if all is well. It has one closed entry, which starts
with the name of the verdict, for each of these rules in turn. Two pairs have the same reason exactly if
they have the same verdict and the same rules are reported, with the same settings that cannot be told,
and of a period that it is missing, or that it is not. -/
theorem reason_reports (p s : Profile) :
    (∀ c ∈ (reason p s).toList, c.val ≤ 127 ∧ c ≠ '\x00') ∧
    (reason p s = "" ↔ verdict p s = .ok) ∧
    (∃ found : List Finding, found.map Finding.policy = Policy.all.filter (·.Reported p s) ∧
      (reason p s).toList.splitOn ';' = found.map (fun x => body x.text) ++ [[]] ∧
      ∀ x ∈ found, (verdict p s).label.toList <+: body x.text) ∧
    ∀ p' s', reason p s = reason p' s' ↔ verdict p s = verdict p' s' ∧
      ∀ f : Policy, (f.Reported p s ↔ f.Reported p' s') ∧
        (f.Reported p s → f.SameDetail p s p' s') := by
  refine ⟨?_, reason_eq_empty_iff,
    ⟨findings p s, policies_findings, splitOn_reason, fun x hx => ?_⟩, fun p' s' => ?_⟩
  · rw [toList_reason]
    exact ascii_closed plain_of_mem_findings
  · obtain ⟨f, -, hf⟩ := List.mem_filterMap.1 hx
    rw [← verdict_of_finding? hf]
    exact x.entry_text.labelled
  · rw [reason_eq_iff_findings, findings_eq_iff]
    constructor
    · intro h
      have hv := verdict_eq_of_findings h
      exact ⟨hv, fun f => (finding?_eq_iff hv f).1 (h f)⟩
    · rintro ⟨hv, hsame⟩ f
      exact (finding?_eq_iff hv f).2 (hsame f)

/-- A subscription with another deadline and depth gets the same reason: the publisher has no deadline
at all. One that has a deadline, but too long a one, gets another reason. A warning
names the setting that cannot be told: the publisher's reliability, the durability that is requested,
and the liveliness of both. -/
theorem reason_reports_missing :
    let publisher : Profile := { reliability := .bestEffort, durability := .unknown }
    let late : Profile := { publisher with deadline := ⟨9, 0⟩ }
    let s : Profile := { deadline := ⟨1, 0⟩ }
    let s' : Profile := { deadline := ⟨7, 0⟩, depth := 3 }
    let vague : Profile := { reliability := .unknown, durability := .volatile }
    let unset : Profile := { vague with reliability := .systemDefault }
    let request : Profile := { durability := .systemDefault }
    (reason publisher s = reason publisher s' ∧ reason publisher s ≠ reason late s ∧
      ∃ found : List Finding, found.map Finding.policy = [.reliability, .deadline] ∧
        (reason publisher s).toList.splitOn ';' = found.map (fun x => body x.text) ++ [[]] ∧
        ∀ x ∈ found, "ERROR:".toList <+: body x.text) ∧
    reason vague request ≠ reason unset request ∧
      ∃ found : List Finding, found.map Finding.policy = [.reliability, .durability, .liveliness] ∧
        (reason vague request).toList.splitOn ';' = found.map (fun x => body x.text) ++ [[]] ∧
        ∀ x ∈ found, "WARNING:".toList <+: body x.text := by
  intro publisher late s s' vague unset request
  obtain ⟨-, -, ⟨found, hpolicies, hsplit, hlabel⟩, hsame⟩ := reason_reports publisher s
  obtain ⟨-, -, ⟨doubts, hpolicies', hsplit', hlabel'⟩, hsame'⟩ := reason_reports vague request
  refine ⟨⟨(hsame publisher s').2 ⟨by decide, fun f => ?_⟩, fun heq => ?_, found, ?_, hsplit, hlabel⟩,
    fun heq => ?_, doubts, ?_, hsplit', hlabel'⟩
  · cases f <;> decide
  · have hdetail := (((hsame late s).1 heq).2 .deadline).2 (by decide)
    exact absurd hdetail (by decide)
  · rw [hpolicies]
    decide
  · have hdetail := (((hsame' unset request).1 heq).2 .reliability).2 (by decide)
    exact absurd hdetail (by decide)
  · rw [hpolicies']
    decide

end RosGraph.Qos
