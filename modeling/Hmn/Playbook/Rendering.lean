/-
  Hmn.Playbook.Rendering — rendering as simultaneous substitution.

  The values of the inputs are put in one after the other, so that a later
  input is looked for in the values of the earlier ones, too.  Rendering is
  simultaneous substitution, in every order of the inputs, exactly when no
  values that were put in change what is found of another placeholder.

  Main results: `renderPhase_simultaneous_iff`, `value_rendered_again`.
-/
import Hmn.Playbook.Playbook

namespace Hmn.Playbook

open Framework Framework.Replace

/-! ## §1. The replacements. -/

/-- The replacement of the placeholder with spaces. -/
def spacedSub (kv : String × String) : Sub := ((spaced kv.1).toList, kv.2.toList)

/-- The replacement of the one without. -/
def tightSub (kv : String × String) : Sub := ((tight kv.1).toList, kv.2.toList)

/-- The replacements for a mapping, in its order. -/
def replacements (items : List (String × String)) : List Sub :=
  items.flatMap fun kv => [spacedSub kv, tightSub kv]

/-- The command with each of its placeholders filled in at once. -/
def substituted (command : String) (values : Values) : String :=
  String.ofList ((substitute (typeset command.toList) (replacements values.items)).map Glyph.char)

/-- **Rendering is simultaneous substitution**: in every order of the mapping,
what is replaced are exactly the placeholders of the commands, and the result
is each command with them filled in at once. -/
def RendersSimultaneously (p : Playbook) (phase : Phase) (values : Values) : Prop :=
  ∀ order : Values, order.items.Perm values.items →
    (∀ command ∈ p.commands phase,
      OnlyWritten (typeset command.toList) (replacements order.items) (typeset command.toList))
    ∧ (p.missing values = [] →
        p.renderPhase phase order = .ok ((p.commands phase).map (substituted · values)))

/-- No values make, complete or break a placeholder: with those of some inputs
filled in at once, a search for the placeholder of a further input finds what
it finds in the command, in either spelling. -/
def NoNewPlaceholder (command : String) (values : Values) : Prop :=
  ∀ filled next others, (filled ++ next :: others).Perm values.items →
    (spacedSub next).finds (substitute (typeset command.toList) (replacements filled))
        = (spacedSub next).finds (typeset command.toList)
    ∧ (tightSub next).finds
          (substitute (typeset command.toList) (replacements filled ++ [spacedSub next]))
        = (tightSub next).finds (typeset command.toList)

/-! ## §2. A run of the replacements. -/

theorem oldTexts_replacements (items : List (String × String)) : OldTexts (replacements items) := by
  intro sub hsub
  obtain ⟨kv, -, hsub⟩ := List.mem_flatMap.mp hsub
  rcases List.mem_pair.mp hsub with rfl | rfl
  · simp [spacedSub, spaced]
  · simp [tightSub, tight]

theorem replacements_cons (kv : String × String) (items : List (String × String)) :
    replacements (kv :: items) = spacedSub kv :: tightSub kv :: replacements items := rfl

theorem replacements_append (items items' : List (String × String)) :
    replacements (items ++ items') = replacements items ++ replacements items' :=
  List.flatMap_append

/-- The text that `render` goes through is the one of a run. -/
theorem foldl_strReplace (items : List (String × String)) (t : List Glyph) :
    (items.foldl (fun rendered kv => strReplace (strReplace rendered (spaced kv.1) kv.2)
        (tight kv.1) kv.2) (String.ofList (t.map Glyph.char)))
      = String.ofList ((run (replacements items) t).map Glyph.char) := by
  induction items generalizing t with
  | nil => rfl
  | cons kv items ih =>
    have hspaced : strReplace (String.ofList (t.map Glyph.char)) (spaced kv.1) kv.2
        = String.ofList (((spacedSub kv).apply t).map Glyph.char) := by
      rw [strReplace, String.toList_ofList, map_char_apply]
      rfl
    have htight : strReplace (String.ofList (((spacedSub kv).apply t).map Glyph.char))
          (tight kv.1) kv.2
        = String.ofList (((tightSub kv).apply ((spacedSub kv).apply t)).map Glyph.char) := by
      rw [strReplace, String.toList_ofList, map_char_apply _ (tightSub kv)]
      rfl
    rw [List.foldl_cons, hspaced, htight, ih]
    rfl

theorem render_eq_run (command : String) (values : Values) :
    render command values
      = String.ofList ((run (replacements values.items)
          (typeset command.toList)).map Glyph.char) := by
  rw [render, ← foldl_strReplace, map_char_typeset, String.ofList_toList]

/-- A replacement is one of the two of some input. -/
theorem replacements_split {items : List (String × String)} {before behind : List Sub} {sub : Sub}
    (h : replacements items = before ++ sub :: behind) :
    ∃ filled next others, items = filled ++ next :: others
      ∧ (before = replacements filled ∧ sub = spacedSub next
        ∨ before = replacements filled ++ [spacedSub next] ∧ sub = tightSub next) := by
  induction items generalizing before with
  | nil => cases before <;> cases h
  | cons kv items ih =>
    rw [replacements_cons] at h
    match before, h with
    | [], h =>
      cases h
      exact ⟨[], kv, items, rfl, Or.inl ⟨rfl, rfl⟩⟩
    | [b], h =>
      cases h
      exact ⟨[], kv, items, rfl, Or.inr ⟨rfl, rfl⟩⟩
    | b :: b' :: before, h =>
      simp only [List.cons_append, List.cons.injEq] at h
      obtain ⟨rfl, rfl, hrest⟩ := h
      obtain ⟨filled, next, others, rfl, hsub⟩ := ih hrest
      refine ⟨kv :: filled, next, others, rfl, ?_⟩
      rcases hsub with ⟨rfl, rfl⟩ | ⟨rfl, rfl⟩
      · exact Or.inl ⟨rfl, rfl⟩
      · exact Or.inr ⟨rfl, rfl⟩

/-- A run finds only what was written when every input does, in its two
spellings. -/
theorem onlyWritten_replacements {source : List Char} {items : List (String × String)} :
    OnlyWritten (typeset source) (replacements items) (typeset source)
      ↔ ∀ filled next others, items = filled ++ next :: others →
        (spacedSub next).finds (substitute (typeset source) (replacements filled))
            = (spacedSub next).finds (typeset source)
        ∧ (tightSub next).finds
              (substitute (typeset source) (replacements filled ++ [spacedSub next]))
            = (tightSub next).finds (typeset source) := by
  rw [onlyWritten_iff (oldTexts_replacements items)]
  constructor
  · rintro h filled next others rfl
    rw [replacements_append, replacements_cons] at h
    refine ⟨h _ _ _ rfl, h (replacements filled ++ [spacedSub next]) (tightSub next)
      (replacements others) ?_⟩
    rw [List.append_assoc, List.singleton_append]
  · intro h before sub behind heq
    obtain ⟨filled, next, others, hitems, hsub⟩ := replacements_split heq
    obtain ⟨hspaced, htight⟩ := h filled next others hitems
    rcases hsub with ⟨rfl, rfl⟩ | ⟨rfl, rfl⟩
    · exact hspaced
    · exact htight

theorem replacements_perm {items items' : List (String × String)} (h : items.Perm items') :
    (replacements items).Perm (replacements items') :=
  h.flatMap_right _

/-! ## §3. Rendering. -/

theorem missing_perm (p : Playbook) {values order : Values}
    (h : order.items.Perm values.items) : p.missing order = p.missing values := by
  have hkeys : ∀ key, key ∈ order.items.map Prod.fst ↔ key ∈ values.items.map Prod.fst :=
    fun key => (h.map Prod.fst).mem_iff
  simp only [missing, hkeys]

theorem renderPhase_eq {p : Playbook} {phase : Phase} {values : Values}
    (h : p.missing values = []) :
    p.renderPhase phase values = .ok ((p.commands phase).map (render · values)) := by
  rw [renderPhase, validateRequiredInputs, h]
  rfl

/-- In an order in which only what was written is found, a command is rendered
as in all others. -/
theorem render_eq_substituted {command : String} {values order : Values}
    (hperm : order.items.Perm values.items)
    (h : OnlyWritten (typeset command.toList) (replacements order.items)
      (typeset command.toList)) :
    render command order = substituted command values := by
  have hold := oldTexts_replacements order.items
  rw [render_eq_run, run_eq_substitute hold h, substituted,
    substitute_perm (replacements_perm hperm) (pairwise_apart hold h)]

/-- **When rendering is simultaneous substitution.**  For every playbook, phase
and mapping of the inputs: exactly when no values make, complete or break a
placeholder in a command of the phase. -/
theorem renderPhase_simultaneous_iff (p : Playbook) (phase : Phase) (values : Values) :
    RendersSimultaneously p phase values
      ↔ ∀ command ∈ p.commands phase, NoNewPlaceholder command values := by
  constructor
  · intro h command hcommand filled next others hperm
    have hnodup := (hperm.map Prod.fst).nodup_iff.mpr values.nodup
    have hrun := (h ⟨filled ++ next :: others, hnodup⟩ hperm).1 command hcommand
    exact onlyWritten_replacements.mp hrun filled next others rfl
  · intro h order hperm
    have hwritten : ∀ command ∈ p.commands phase, OnlyWritten (typeset command.toList)
        (replacements order.items) (typeset command.toList) := fun command hcommand =>
      onlyWritten_replacements.mpr fun filled next others hitems =>
        h command hcommand filled next others (hitems ▸ hperm)
    refine ⟨hwritten, fun hmissing => ?_⟩
    rw [← missing_perm p hperm] at hmissing
    rw [renderPhase_eq hmissing]
    exact congrArg Except.ok (List.map_congr_left fun command hcommand =>
      render_eq_substituted hperm (hwritten command hcommand))

/-- A playbook with one command, which shows its first input. -/
def showPlaybook : Playbook := {
  id := "demo.show"
  risk := "low"
  action := ["echo \x7b\x7b a \x7d\x7d"] }

/-- The value of the first input is a placeholder of the second. -/
def nestedValues : Values := ⟨[("a", "\x7b\x7b b \x7d\x7d"), ("b", "$(id)")], by decide⟩

/-- The same mapping in the other order. -/
def nestedValuesReversed : Values := ⟨[("b", "$(id)"), ("a", "\x7b\x7b b \x7d\x7d")], by decide⟩

/-- **A value is rendered again**, in one order of the mapping and not in the
other. -/
theorem value_rendered_again :
    showPlaybook.renderPhase .action nestedValues = .ok ["echo $(id)"]
    ∧ showPlaybook.renderPhase .action nestedValuesReversed
        = .ok ["echo \x7b\x7b b \x7d\x7d"]
    ∧ ¬ RendersSimultaneously showPlaybook .action nestedValues := by
  refine ⟨by decide +kernel, by decide +kernel, fun h => ?_⟩
  have hwritten := (h nestedValues (List.Perm.refl _)).1 _ List.mem_cons_self
  revert hwritten
  decide +kernel

end Hmn.Playbook
