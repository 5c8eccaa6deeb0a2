/-
  Hmn.Services.ComposeLines — the lines of a Compose file.

  In the layout with two blanks a level, a line is a key of the file, a key of
  a section, a key of an entry, a line further in or a comment.  What the
  reader of Compose files makes of a line depends on that and on its text
  (`readLine_spelled`).
-/
import Hmn.Services.ProxyBinding

namespace Hmn

open Framework Framework.Regex Framework.Text

/-! ## §1. Lines. -/

/-- A line of a Compose file that is not blank. -/
inductive ComposeLine where
  /-- A key of the file, and what stands behind its colon. -/
  | top (key rest : String)
  /-- A key of a section, indented by two. -/
  | entry (key rest : String)
  /-- A key of an entry, indented by four. -/
  | property (key rest : String)
  /-- A line further in. -/
  | deeper (text : String)
  | comment (text : String)
  deriving DecidableEq

/-- `[A-Za-z0-9_.-]`. -/
def isComposeKeyChar (c : Char) : Bool := isAlnum c || c = '_' || c = '.' || c = '-'

namespace ComposeLine

/-- The line without the blanks around it. -/
def text : ComposeLine → String
  | top key rest | entry key rest | property key rest => key ++ ":" ++ rest
  | deeper text | comment text => text

/-- The name in a line that is taken for the start of a service. -/
def header? : ComposeLine → Option String
  | entry key rest =>
    if rest = "" ∧ key.toList.all isComposeKeyChar ∧ key ≠ "services" then some key else none
  | _ => none

/-- A key and what stands behind its colon, if anything after a blank. -/
def IsKey (key rest : String) : Prop :=
  (∃ c cs, key.toList = c :: cs ∧ c ≠ '-' ∧ c ≠ '#') ∧ ':' ∉ key.toList
    ∧ (rest = "" ∨ rest.toList.head? = some ' ')

/-- `raw` is `text` indented by `n`. -/
def Indented (n : Nat) (text raw : String) : Prop :=
  (Text.rstrip raw).toList = List.replicate n ' ' ++ text.toList
    ∧ ∃ c cs, text.toList = c :: cs ∧ isSpace c = false

/-- A line as it stands in the file. -/
def Spelled (raw : String) (line : ComposeLine) : Prop :=
  match line with
  | top key rest => IsKey key rest ∧ Indented 0 line.text raw
  | entry key rest => IsKey key rest ∧ Indented 2 line.text raw
  | property key rest => IsKey key rest ∧ Indented 4 line.text raw
  | deeper text => text.toList.head? ≠ some '#'
      ∧ ∃ n, (6 ≤ n ∨ 4 ≤ n ∧ text.toList.head? = some '-') ∧ Indented n text raw
  | comment text => text.toList.head? = some '#' ∧ ∃ n, Indented n text raw

end ComposeLine

/-- `text` is a Compose file of these lines, with blank lines anywhere. -/
def SpellsCompose (lines : List ComposeLine) (text : String) : Prop :=
  List.Forall₂ (fun line raw => line.Spelled raw) lines
    ((Text.splitLines text).filter fun raw => Text.strip (Text.rstrip raw) ≠ "")

/-! ## §2. Which lines start a service. -/

/-- Where the pattern of headers leads to the end. -/
theorem composeHeader_matches {line : String} (h : composeHeader.matches_ line = true) :
    ∃ key blank, line.toList = ' ' :: ' ' :: (key ++ ':' :: blank) ∧ key ≠ []
      ∧ (∀ c ∈ key, isComposeKeyChar c = true) ∧ Spaces blank := by
  have hhere : composeHeader.Here none line.toList := by
    by_contra hnot
    rw [Regex.matches_, matchAt_eq_none.mpr hnot] at h
    cases h
  obtain ⟨out, mid₁, h₁, mid₂, h₂, mid₃, h₃, mid₄, h₄, mid₅, ⟨hend, rfl⟩, rfl⟩ := hhere
  obtain ⟨rest₁, hrest₁, rfl⟩ := matches_lit.mp h₁
  obtain ⟨key, rest₂, hne, hrest₂, hkey, rfl⟩ := matches_plus.mp h₂
  obtain ⟨rest₃, hrest₃, rfl⟩ := matches_lit.mp h₃
  obtain ⟨blank, rest₄, hrest₄, hblank, rfl⟩ := h₄
  simp only [Cursor.behind] at hrest₁ hrest₂ hrest₃ hrest₄ hend
  refine ⟨key, blank ++ rest₄, ?_, hne, hkey, ?_⟩
  · rw [hrest₁, hrest₂, hrest₃, hrest₄]
    rfl
  · intro c hc
    rcases List.mem_append.mp hc with hc | hc
    · exact hblank c hc
    · rcases hend with rfl | rfl
      · cases hc
      · obtain rfl := List.mem_singleton.mp hc
        decide

theorem composeHeader_of_key {key : List Char} (hne : key ≠ [])
    (hkey : ∀ c ∈ key, isComposeKeyChar c = true) {line : String}
    (h : line.toList = ' ' :: ' ' :: (key ++ [':'])) : composeHeader.matches_ line = true := by
  have hhere : composeHeader.Here none line.toList :=
    ⟨_, _, matches_lit.mpr ⟨key ++ [':'], h, rfl⟩, _, matches_plus.mpr ⟨key, [':'], hne, rfl, hkey,
      rfl⟩, _, matches_lit.mpr ⟨[], rfl, rfl⟩, _, ⟨[], [], rfl, nofun, rfl⟩, _, ⟨Or.inl rfl, rfl⟩, rfl⟩
  rw [Regex.matches_]
  cases hat : composeHeader.matchAt none line.toList with
  | none => exact absurd hhere (matchAt_eq_none.mp hat)
  | some found => rfl

namespace ComposeLine

/-- An indented line without the blanks around it. -/
theorem Indented.strip {n : Nat} {text raw : String} (h : Indented n text raw) :
    Text.strip (Text.rstrip raw) = text := by
  obtain ⟨hraw, c, cs, htext, hc⟩ := h
  have hlast : ∀ d ∈ text.toList.getLast?, isSpace d = false := by
    intro d hd
    have hraw_last : (Text.rstrip raw).toList.getLast? = some d := by
      rw [hraw, List.getLast?_append, hd]
      rfl
    rw [Text.rstrip, String.toList_ofList, List.getLast?_reverse] at hraw_last
    have hdrop := List.head?_dropWhile_not isSpace raw.toList.reverse
    rw [hraw_last] at hdrop
    simpa using hdrop
  have hspaces : Spaces (List.replicate n ' ') := fun d hd => by
    rw [List.eq_of_mem_replicate hd]
    decide
  have hstrip : stripChars (List.replicate n ' ' ++ text.toList) = text.toList := by
    refine Eq.trans ?_ (stripChars_eq_self (fun d hd => ?_) hlast)
    · rw [stripChars, stripChars, dropWhile_spaces hspaces]
    · rw [htext] at hd
      obtain rfl := Option.some.inj hd
      exact hc
  rw [Text.strip, hraw, hstrip, String.ofList_toList]

/-- Only a line indented by two can be a header, and only one that is a key. -/
theorem Indented.header_iff {n : Nat} {text raw : String} (h : Indented n text raw) :
    composeHeader.matches_ (Text.rstrip raw) = true ↔
      n = 2 ∧ ∃ key, key ≠ [] ∧ (∀ c ∈ key, isComposeKeyChar c = true)
        ∧ text.toList = key ++ [':'] := by
  constructor
  · intro hmatch
    obtain ⟨key, blank, hline, hne, hkey, hblank⟩ := composeHeader_matches hmatch
    obtain ⟨hraw, c, cs, htext, hc⟩ := h
    have hnospace : ∀ {d : Char}, isComposeKeyChar d = true → d ≠ ' ' := by
      rintro d hd rfl
      exact absurd hd (by decide)
    have hblank_nil : blank = [] := by
      rcases List.eq_nil_or_concat' blank with rfl | ⟨init, last, rfl⟩
      · rfl
      · have hlast : (Text.rstrip raw).toList.getLast? = some last := by
          rw [hline]
          simp [List.getLast?_cons]
        rw [Text.rstrip, String.toList_ofList, List.getLast?_reverse] at hlast
        have hdrop := List.head?_dropWhile_not isSpace raw.toList.reverse
        rw [hlast] at hdrop
        have hspace := hblank last (by simp)
        simp [hspace] at hdrop
    rw [hraw, hblank_nil, htext] at hline
    obtain ⟨d, ds, rfl⟩ := List.exists_cons_of_ne_nil hne
    match n with
    | 0 =>
      obtain ⟨rfl, -⟩ := List.cons.inj hline
      exact absurd hc (by decide)
    | 1 =>
      obtain ⟨rfl, -⟩ := List.cons.inj (List.cons.inj hline).2
      exact absurd hc (by decide)
    | 2 => exact ⟨rfl, _, hne, hkey, htext.trans (List.cons.inj (List.cons.inj hline).2).2⟩
    | n + 3 =>
      have hthird := (List.cons.inj (List.cons.inj (List.cons.inj hline).2).2).1
      exact absurd hthird.symm (hnospace (hkey d List.mem_cons_self))
  · rintro ⟨rfl, key, hne, hkey, htext⟩
    exact composeHeader_of_key hne hkey (by rw [h.1, htext]; rfl)

/-- The text of a key alone on its line. -/
theorem IsKey.text_eq {key rest : String} {cs : List Char} (h : IsKey key rest) :
    (key ++ ":" ++ rest).toList = cs ++ [':'] ∧ ':' ∉ cs ↔ rest = "" ∧ key.toList = cs := by
  obtain ⟨-, hcolon, hrest⟩ := h
  have htext : (key ++ ":" ++ rest).toList = key.toList ++ ':' :: rest.toList := by
    simp
  rw [htext]
  constructor
  · rintro ⟨heq, hcs⟩
    have htake : ∀ {ds es : List Char}, ':' ∉ ds → (ds ++ ':' :: es).takeWhile (· ≠ ':') = ds := by
      intro ds es hds
      rw [List.takeWhile_append_of_pos, List.takeWhile_cons_of_neg (by simp), List.append_nil]
      exact fun c hc => by simpa using fun heq : c = ':' => hds (heq ▸ hc)
    have hkey : key.toList = cs := by
      rw [← @htake _ rest.toList hcolon, heq, htake hcs]
    rw [hkey] at heq
    have hnil := (List.cons.inj (List.append_cancel_left heq)).2
    exact ⟨String.toList_inj.mp (hnil.trans rfl), hkey⟩
  · rintro ⟨rfl, rfl⟩
    exact ⟨rfl, hcolon⟩

end ComposeLine

/-! ## §3. What a line does. -/

namespace ComposeState

/-- What is made of the text of a line inside a service. -/
def readText (s : ComposeState) (stripped : String) : ComposeState :=
  if Text.startsWith stripped "image:" then
    { s with currentImage := Text.strip (Text.after stripped ':') }
  else if stripped = "env_file:" then s.enter true false false
  else if stripped = "volumes:" then s.enter false true false
  else if stripped = "healthcheck:" then s.enter false false true
  else if Text.startsWith stripped "-" ∧ s.inEnvFile then
    { s with envPaths := s.envPaths ++ [Text.strip (Text.removePrefix stripped "-")] }
  else if Text.startsWith stripped "-" ∧ s.inVolumes then
    let hostPath := Text.strip (Text.before (Text.strip (Text.removePrefix stripped "-")) ':')
    if configSuffixes.any (Text.endsWith hostPath) then
      { s with configPaths := s.configPaths ++ [hostPath] }
    else { s with dataPaths := s.dataPaths ++ [hostPath] }
  else if s.inHealthcheck ∧ Text.contains stripped "http://" then
    match extractUrls stripped with
    | url :: _ => { s with healthCheckUrl := url }
    | [] => s
  else s

/-- The state after a line. -/
def readComposeLine (nodeId : String) (s : ComposeState) (line : ComposeLine) : ComposeState :=
  match line.header? with
  | some key => { (s.flush nodeId).enter false false false with currentName := key }
  | none => if s.currentName = "" then s else s.readText line.text

/-- What is made of a line that is not blank. -/
theorem readLine_eq (nodeId : String) (s : ComposeState) {n : Nat} {text raw : String}
    (h : ComposeLine.Indented n text raw) :
    s.readLine nodeId raw =
      if composeHeader.matches_ (Text.rstrip raw) ∧ text ≠ "services:" then
        { (s.flush nodeId).enter false false false with currentName := Text.removeSuffix text ":" }
      else if s.currentName = "" then s else s.readText text := by
  have hne : text ≠ "" := by
    obtain ⟨-, c, cs, htext, -⟩ := h
    rintro rfl
    cases htext
  rw [readLine, h.strip]
  exact if_neg hne

theorem removeSuffix_key {key text : String} (h : text.toList = key.toList ++ [':']) :
    Text.removeSuffix text ":" = key := by
  have hsuffix : Text.endsWith text ":" = true := by
    rw [Text.endsWith, h]
    exact List.isSuffixOf_iff_suffix.mpr ⟨key.toList, rfl⟩
  rw [Text.removeSuffix, if_pos hsuffix, h]
  have htake : (key.toList ++ [':']).take ((key.toList ++ [':']).length - ":".toList.length)
      = key.toList := List.take_left' (by simp)
  rw [htake, String.ofList_toList]

/-- A line that is no header. -/
theorem readLine_plain (nodeId : String) (s : ComposeState) {n : Nat} {text raw : String}
    (h : ComposeLine.Indented n text raw)
    (hplain : n = 2 → ∀ key, (∀ c ∈ key, isComposeKeyChar c = true) → text.toList ≠ key ++ [':']) :
    s.readLine nodeId raw = if s.currentName = "" then s else s.readText text := by
  rw [readLine_eq nodeId s h, if_neg]
  rintro ⟨hmatch, -⟩
  obtain ⟨hn, key, -, hkey, htext⟩ := h.header_iff.mp hmatch
  exact hplain hn key hkey htext

/-- **What the reader makes of a line is what the line is.** -/
theorem readLine_spelled (nodeId : String) (s : ComposeState) {line : ComposeLine} {raw : String}
    (h : line.Spelled raw) : s.readLine nodeId raw = s.readComposeLine nodeId line := by
  cases line with
  | top key rest => exact readLine_plain nodeId s h.2 nofun
  | property key rest => exact readLine_plain nodeId s h.2 nofun
  | deeper text =>
    obtain ⟨-, n, hn, hindented⟩ := h
    exact readLine_plain nodeId s hindented (fun htwo => by omega)
  | comment text =>
    obtain ⟨hsharp, n, hindented⟩ := h
    refine readLine_plain nodeId s hindented (fun _ key hkey htext => ?_)
    rw [show text.toList = key ++ [':'] from htext] at hsharp
    cases key with
    | nil => cases hsharp
    | cons c key =>
      obtain rfl := Option.some.inj hsharp
      exact absurd (hkey '#' List.mem_cons_self) (by decide)
  | entry key rest =>
    obtain ⟨hkey, hindented⟩ := h
    have hcolon : ∀ {cs : List Char}, (∀ c ∈ cs, isComposeKeyChar c = true) → ':' ∉ cs :=
      fun hcs hmem => absurd (hcs ':' hmem) (by decide)
    by_cases hheader : rest = "" ∧ key.toList.all isComposeKeyChar ∧ key ≠ "services"
    · have hsome : (ComposeLine.entry key rest).header? = some key := if_pos hheader
      obtain ⟨rfl, hchars, hservices⟩ := hheader
      have htext : (ComposeLine.entry key "").text.toList = key.toList ++ [':'] :=
        (hkey.text_eq.mpr ⟨rfl, rfl⟩).1
      have hne : key.toList ≠ [] := by
        obtain ⟨⟨c, cs, hcs, -⟩, -⟩ := hkey
        rw [hcs]
        exact List.cons_ne_nil c cs
      have hnot : (ComposeLine.entry key "").text ≠ "services:" := by
        intro heq
        rw [heq] at htext
        exact hservices (String.toList_inj.mp (List.append_cancel_right htext.symm))
      rw [readLine_eq nodeId s hindented, if_pos ⟨hindented.header_iff.mpr
        ⟨rfl, key.toList, hne, List.all_eq_true.mp hchars, htext⟩, hnot⟩, removeSuffix_key htext,
        readComposeLine, hsome]
    · have hnone : (ComposeLine.entry key rest).header? = none := if_neg hheader
      rw [readLine_eq nodeId s hindented, readComposeLine, hnone, if_neg]
      rintro ⟨hmatch, hnot⟩
      obtain ⟨-, cs, -, hcs, htext⟩ := hindented.header_iff.mp hmatch
      obtain ⟨rfl, rfl⟩ := hkey.text_eq.mp ⟨htext, hcolon hcs⟩
      refine hheader ⟨rfl, List.all_eq_true.mpr hcs, ?_⟩
      rintro rfl
      exact hnot rfl

end ComposeState

end Hmn
