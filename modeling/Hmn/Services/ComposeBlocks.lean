/-
  Hmn.Services.ComposeBlocks — which lines of a Compose file the reader takes
  for those of a service.

  A service is read from a key alone on a line indented by two up to the next
  such line, in whatever section; inside it the last of `env_file:`, `volumes:`
  and `healthcheck:` says what a line is read as.  The blocks of the file are
  the entries of the section `services`, up to the next key at their level, and
  their lines belong to the keys they stand under.

  Main result: `compose_services_iff`.
-/
import Hmn.Services.ComposeLines

namespace Hmn

open Framework Framework.Fallible Framework.Text

/-! ## §1. What is read. -/

/-- The lists and the section of a service that are read. -/
inductive ComposeSection where
  | envFile
  | volumes
  | healthcheck
  deriving DecidableEq

/-- The section that a line opens. -/
def openedBy (text : String) : Option ComposeSection :=
  if text = "env_file:" then some .envFile
  else if text = "volumes:" then some .volumes
  else if text = "healthcheck:" then some .healthcheck
  else none

/-- The lines read as those of a section: the last section that was opened
before them, if not `opened` then in the list. -/
def linesBehind (wanted : ComposeSection) : Option ComposeSection → List String → List String
  | _, [] => []
  | opened, text :: texts =>
    (if opened = some wanted then [text] else [])
      ++ linesBehind wanted ((openedBy text).or opened) texts

def isItem (text : String) : Bool := Text.startsWith text "-"

def itemText (text : String) : String := Text.strip (Text.removePrefix text "-")

/-- The path of a volume on the host. -/
def hostPath (text : String) : String := Text.strip (Text.before (itemText text) ':')

def isConfigPath (path : String) : Bool := ComposeState.configSuffixes.any (Text.endsWith path)

def isImage (text : String) : Bool := Text.startsWith text "image:"

def imageValue (text : String) : String := Text.strip (Text.after text ':')

/-- The URL that is taken from a line of a health check. -/
def checkedUrl (text : String) : Option String :=
  if !isImage text ∧ Text.contains text "http://" then (extractUrls text).head? else none

namespace ComposeState

/-- The state inside a section. -/
def inside (s : ComposeState) (opened : Option ComposeSection) : ComposeState :=
  s.enter (opened = some .envFile) (opened = some .volumes) (opened = some .healthcheck)

/-- What a line adds. -/
def add (s : ComposeState) (opened : Option ComposeSection) (text : String) : ComposeState :=
  if isImage text then { s with currentImage := imageValue text }
  else
    match opened with
    | some .envFile => if isItem text then { s with envPaths := s.envPaths ++ [itemText text] } else s
    | some .volumes =>
      if isItem text then
        if isConfigPath (hostPath text) then
          { s with configPaths := s.configPaths ++ [hostPath text] }
        else { s with dataPaths := s.dataPaths ++ [hostPath text] }
      else s
    | some .healthcheck => { s with healthCheckUrl := (checkedUrl text).getD s.healthCheckUrl }
    | none => s

/-- A line that opens a section is no image and no item. -/
theorem openedBy_plain {text : String} {wanted : ComposeSection} (h : openedBy text = some wanted) :
    isImage text = false ∧ isItem text = false ∧ checkedUrl text = none := by
  rw [openedBy] at h
  split_ifs at h with henv hvolumes hhealth
  · rw [henv]
    exact ⟨by decide, by decide, by decide⟩
  · rw [hvolumes]
    exact ⟨by decide, by decide, by decide⟩
  · rw [hhealth]
    exact ⟨by decide, by decide, by decide⟩

/-- An image opens no section. -/
theorem openedBy_image {text : String} (h : isImage text = true) : openedBy text = none := by
  cases hopened : openedBy text with
  | none => rfl
  | some wanted =>
    rw [(openedBy_plain hopened).1] at h
    cases h

/-- **What a line does inside a service.** -/
theorem readText_inside (s : ComposeState) (opened : Option ComposeSection) (text : String) :
    (s.inside opened).readText text = (s.add opened text).inside ((openedBy text).or opened) := by
  by_cases himage : isImage text = true
  · rw [openedBy_image himage, add.eq_def, if_pos himage, readText]
    exact if_pos himage
  · rw [readText]
    refine (if_neg himage).trans ?_
    by_cases henv : text = "env_file:"
    · rw [if_pos henv, henv]
      cases opened with
      | none => rfl
      | some opened => cases opened <;> rfl
    by_cases hvolumes : text = "volumes:"
    · rw [if_neg henv, if_pos hvolumes, hvolumes]
      cases opened with
      | none => rfl
      | some opened => cases opened <;> rfl
    by_cases hhealth : text = "healthcheck:"
    · rw [if_neg henv, if_neg hvolumes, if_pos hhealth, hhealth]
      cases opened with
      | none => rfl
      | some opened => cases opened <;> rfl
    have hopened : openedBy text = none := by
      rw [openedBy, if_neg henv, if_neg hvolumes, if_neg hhealth]
    rw [if_neg henv, if_neg hvolumes, if_neg hhealth, hopened, add.eq_def, if_neg himage]
    match opened with
    | none => simp [inside, enter]
    | some .envFile => by_cases hitem : isItem text = true <;> simp_all [inside, enter, isItem, itemText]
    | some .volumes =>
      by_cases hitem : isItem text = true
      · refine (if_neg (by rintro ⟨-, h⟩; cases h)).trans ((if_pos ⟨hitem, rfl⟩).trans ?_)
        by_cases hconfig : isConfigPath (hostPath text) = true
        · refine (if_pos hconfig).trans ?_
          simp only [hitem, hconfig, if_true]
          rfl
        · refine (if_neg hconfig).trans ?_
          simp only [hitem, hconfig, if_true]
          rfl
      · simp_all [inside, enter, isItem]
    | some .healthcheck =>
      rw [checkedUrl]
      cases hurls : extractUrls text <;> by_cases hcontains : Text.contains text "http://" = true <;>
        simp_all [inside, enter]

/-- An image is no item. -/
theorem isItem_image {text : String} (h : isImage text = true) : isItem text = false := by
  have himage : "image:".toList <+: text.toList := List.isPrefixOf_iff_prefix.mp h
  obtain ⟨rest, hrest⟩ := himage
  rw [isItem, Text.startsWith, ← hrest]
  rfl

/-- What the lines of a service leave of the state before them. -/
structure ReadFrom (s : ComposeState) (opened : Option ComposeSection) (texts : List String)
    (s' : ComposeState) : Prop where
  records : s'.records = s.records
  name : s'.currentName = s.currentName
  image : s'.currentImage = ((texts.filter isImage).map imageValue).getLast?.getD s.currentImage
  env : s'.envPaths = s.envPaths ++ ((linesBehind .envFile opened texts).filter isItem).map itemText
  config : s'.configPaths = s.configPaths
    ++ (((linesBehind .volumes opened texts).filter isItem).map hostPath).filter isConfigPath
  data : s'.dataPaths = s.dataPaths
    ++ (((linesBehind .volumes opened texts).filter isItem).map hostPath).filter (!isConfigPath ·)
  url : s'.healthCheckUrl
    = ((linesBehind .healthcheck opened texts).filterMap checkedUrl).getLast?.getD s.healthCheckUrl

/-- What one line leaves. -/
theorem readFrom_add (s : ComposeState) (opened : Option ComposeSection) (text : String) :
    ReadFrom s opened [text] (s.add opened text) := by
  by_cases himage : isImage text = true
  · have hitem := isItem_image himage
    have hurl : checkedUrl text = none := by
      rw [checkedUrl, himage]
      rfl
    rw [add.eq_def, if_pos himage]
    constructor <;> simp [linesBehind, himage, hitem]
    split_ifs <;> simp [hurl]
  · rw [Bool.not_eq_true] at himage
    match opened with
    | none => constructor <;> simp [add, linesBehind, himage]
    | some .envFile =>
      by_cases hitem : isItem text = true <;>
        constructor <;> simp [add, linesBehind, himage, hitem]
    | some .volumes =>
      by_cases hitem : isItem text = true
      · by_cases hconfig : isConfigPath (hostPath text) = true <;>
          constructor <;> simp [add, linesBehind, himage, hitem, hconfig]
      · constructor <;> simp [add, linesBehind, himage, hitem]
    | some .healthcheck =>
      cases hurl : checkedUrl text <;>
        constructor <;> simp [add, linesBehind, himage, hurl]

theorem getLast?_getD_append {α : Type _} (xs ys : List α) (a : α) :
    (xs ++ ys).getLast?.getD a = ys.getLast?.getD (xs.getLast?.getD a) := by
  rw [List.getLast?_append]
  cases ys.getLast? <;> rfl

theorem linesBehind_cons (wanted : ComposeSection) (opened : Option ComposeSection) (text : String)
    (texts : List String) :
    linesBehind wanted opened (text :: texts) =
      linesBehind wanted opened [text] ++ linesBehind wanted ((openedBy text).or opened) texts := by
  simp [linesBehind]

/-- What a line and the lines after it leave. -/
theorem ReadFrom.cons {s s₁ s₂ : ComposeState} {opened : Option ComposeSection} {text : String}
    {texts : List String} (h₁ : ReadFrom s opened [text] s₁)
    (h₂ : ReadFrom s₁ ((openedBy text).or opened) texts s₂) :
    ReadFrom s opened (text :: texts) s₂ where
  records := h₂.records.trans h₁.records
  name := h₂.name.trans h₁.name
  image := by
    rw [h₂.image, h₁.image, ← getLast?_getD_append, ← List.map_append, ← List.filter_append]
    rfl
  env := by
    rw [h₂.env, h₁.env, linesBehind_cons _ _ text texts, List.filter_append, List.map_append, List.append_assoc]
  config := by
    rw [h₂.config, h₁.config, linesBehind_cons _ _ text texts, List.filter_append, List.map_append,
      List.filter_append, List.append_assoc]
  data := by
    rw [h₂.data, h₁.data, linesBehind_cons _ _ text texts, List.filter_append, List.map_append,
      List.filter_append, List.append_assoc]
  url := by
    rw [h₂.url, h₁.url, linesBehind_cons _ _ text texts, List.filterMap_append, getLast?_getD_append]

/-- **What the lines of a service leave.** -/
theorem foldl_readText (texts : List String) :
    ∀ (s : ComposeState) (opened : Option ComposeSection),
      ReadFrom s opened texts (texts.foldl readText (s.inside opened)) := by
  induction texts with
  | nil =>
    intro s opened
    constructor <;> simp [linesBehind, inside, enter]
  | cons text texts ih =>
    intro s opened
    rw [List.foldl_cons, readText_inside]
    exact (readFrom_add s opened text).cons (ih _ _)

end ComposeState

/-! ## §2. The blocks the reader makes. -/

/-- The blocks that are read: a header and the texts up to the next. -/
def readBlocks : List ComposeLine → List (String × List String)
  | [] => []
  | line :: lines =>
    match line.header? with
    | some key =>
      (key, (lines.takeWhile (·.header?.isNone)).map ComposeLine.text) :: readBlocks lines
    | none => readBlocks lines

namespace ComposeState

/-- The state behind a header. -/
def startOf (key : String) (records : List ServiceRecord) : ComposeState :=
  { currentName := key, records := records }

/-- The state behind the lines of a block. -/
def ofBlock (block : String × List String) (records : List ServiceRecord) : ComposeState :=
  block.2.foldl readText (startOf block.1 records)

theorem readFrom_ofBlock (block : String × List String) (records : List ServiceRecord) :
    ReadFrom (startOf block.1 records) none block.2 (ofBlock block records) :=
  foldl_readText block.2 (startOf block.1 records) none

/-- What is kept of a block, whatever was kept before it. -/
theorem flush_ofBlock (nodeId : String) {block : String × List String} (hkey : block.1 ≠ "")
    (records : List ServiceRecord) :
    ((ofBlock block records).flush nodeId).records =
      records ++ ((ofBlock block []).flush nodeId).records := by
  have hread := readFrom_ofBlock block records
  have hread' := readFrom_ofBlock block []
  have hname : (ofBlock block records).currentName ≠ "" := hread.name ▸ hkey
  have hname' : (ofBlock block []).currentName ≠ "" := hread'.name ▸ hkey
  rw [flush, flush, if_neg hname, if_neg hname']
  simp only [deployPath, hread.records, hread.name, hread.image, hread.env, hread.config, hread.data,
    hread.url, hread'.records, hread'.name, hread'.image, hread'.env, hread'.config, hread'.data,
    hread'.url]
  rfl

/-- A header begins afresh. -/
theorem flush_enter (nodeId : String) (s : ComposeState) (h : s.currentName ≠ "") (key : String) :
    { (s.flush nodeId).enter false false false with currentName := key } =
      startOf key (s.flush nodeId).records := by
  rw [flush, if_neg h]
  rfl

end ComposeState

/-- The records of a block: one, as a block has a name. -/
def blockRecords (nodeId : String) (block : String × List String) : List ServiceRecord :=
  ((ComposeState.ofBlock block []).flush nodeId).records

/-- The lines after a header. -/
theorem foldl_ofBlock (nodeId : String) (lines : List ComposeLine) :
    (∀ line ∈ lines, line.header? ≠ some "") → ∀ (block : String × List String)
      (records : List ServiceRecord), block.1 ≠ "" →
      ((lines.foldl (ComposeState.readComposeLine nodeId) (ComposeState.ofBlock block records)).flush
          nodeId).records =
        records ++ (blockRecords nodeId (block.1,
            block.2 ++ (lines.takeWhile (·.header?.isNone)).map ComposeLine.text)
          ++ (readBlocks lines).flatMap (blockRecords nodeId)) := by
  induction lines with
  | nil =>
    intro _ block records hkey
    simpa [readBlocks, blockRecords] using ComposeState.flush_ofBlock nodeId hkey records
  | cons line lines ih =>
    intro hnames block records hkey
    have hlines := List.forall_mem_of_forall_mem_cons hnames
    have hname : (ComposeState.ofBlock block records).currentName ≠ "" :=
      (ComposeState.readFrom_ofBlock block records).name ▸ hkey
    rw [List.foldl_cons, ComposeState.readComposeLine]
    cases hheader : line.header? with
    | none =>
      have hnext : (ComposeState.ofBlock block records).readText line.text =
          ComposeState.ofBlock (block.1, block.2 ++ [line.text]) records := by
        rw [ComposeState.ofBlock, ComposeState.ofBlock, List.foldl_append]
        rfl
      simp only [readBlocks, hheader, if_neg hname, hnext, List.takeWhile_cons, Option.isNone_none,
        if_true, List.map_cons]
      rw [ih hlines (block.1, block.2 ++ [line.text]) records hkey, List.append_assoc]
      rfl
    | some key =>
      have hkey' : key ≠ "" := by
        rintro rfl
        exact hnames line List.mem_cons_self hheader
      have hstart : ∀ records, ComposeState.startOf key records =
          ComposeState.ofBlock (key, []) records := fun _ => rfl
      simp only [readBlocks, hheader, ComposeState.flush_enter nodeId _ hname]
      rw [hstart, ih hlines (key, []) _ hkey', ComposeState.flush_ofBlock nodeId hkey records]
      simp [hheader, blockRecords]

/-- The lines of the file. -/
theorem foldl_readComposeLine (nodeId : String) (lines : List ComposeLine)
    (hnames : ∀ line ∈ lines, line.header? ≠ some "") :
    ((lines.foldl (ComposeState.readComposeLine nodeId) {}).flush nodeId).records =
      (readBlocks lines).flatMap (blockRecords nodeId) := by
  induction lines with
  | nil => rfl
  | cons line lines ih =>
    have hlines := List.forall_mem_of_forall_mem_cons hnames
    rw [List.foldl_cons, ComposeState.readComposeLine]
    cases hheader : line.header? with
    | none =>
      simp only [readBlocks, hheader]
      exact ih hlines
    | some key =>
      have hkey : key ≠ "" := by
        rintro rfl
        exact hnames line List.mem_cons_self hheader
      simp only [readBlocks, hheader]
      exact (foldl_ofBlock nodeId lines hlines (key, []) [] hkey).trans (by simp)

/-- A key has a character. -/
theorem Spelled.header?_ne {line : ComposeLine} {raw : String} (h : line.Spelled raw) :
    line.header? ≠ some "" := by
  cases line with
  | entry key rest =>
    intro hheader
    rw [ComposeLine.header?] at hheader
    split_ifs at hheader
    obtain ⟨⟨⟨c, cs, hkey, -⟩, -⟩, -⟩ := h
    rw [Option.some.inj hheader] at hkey
    cases hkey
  | _ => exact nofun

/-- No line of a file starts a service without a name. -/
theorem header?_ne_of_spelled {lines : List ComposeLine} {raws : List String}
    (h : List.Forall₂ (fun line raw => line.Spelled raw) lines raws) :
    ∀ line ∈ lines, line.header? ≠ some "" := by
  induction h with
  | nil => exact nofun
  | cons hline _ ih => exact List.forall_mem_cons.mpr ⟨Spelled.header?_ne hline, ih⟩

/-- The lines of the file as they stand there. -/
theorem foldl_spelled (nodeId : String) {lines : List ComposeLine} {raws : List String}
    (h : List.Forall₂ (fun line raw => line.Spelled raw) lines raws) :
    ∀ s, raws.foldl (ComposeState.readLine nodeId) s =
      lines.foldl (ComposeState.readComposeLine nodeId) s := by
  induction h with
  | nil => exact fun _ => rfl
  | cons hline _ ih =>
    intro s
    rw [List.foldl_cons, List.foldl_cons, ComposeState.readLine_spelled nodeId s hline, ih]

/-- Blank lines are skipped. -/
theorem foldl_nonblank (nodeId : String) (raws : List String) :
    ∀ s, raws.foldl (ComposeState.readLine nodeId) s =
      (raws.filter fun raw => Text.strip (Text.rstrip raw) ≠ "").foldl
        (ComposeState.readLine nodeId) s := by
  induction raws with
  | nil => exact fun _ => rfl
  | cons raw raws ih =>
    intro s
    rw [List.foldl_cons, ih, List.filter_cons]
    by_cases hblank : Text.strip (Text.rstrip raw) = ""
    · rw [if_neg (by simpa using hblank), ComposeState.readLine, if_pos hblank]
    · rw [if_pos (by simpa using hblank), List.foldl_cons]

/-- **What is read of a Compose file.** -/
theorem parseCompose_eq (nodeId : String) {lines : List ComposeLine} {text : String}
    (h : SpellsCompose lines text) :
    parseCompose text nodeId = (readBlocks lines).flatMap (blockRecords nodeId) := by
  rw [parseCompose, foldl_nonblank, foldl_spelled nodeId h,
    foldl_readComposeLine nodeId lines (header?_ne_of_spelled h)]

/-! ## §3. The services of the file. -/

/-- Whether a line belongs to the entry above it. -/
def ComposeLine.isInner : ComposeLine → Bool
  | .top _ _ | .entry _ _ => false
  | _ => true

/-- The entries of the section `services`, each with its lines; `within` that
section the first lines may be. -/
def serviceBlocks : Bool → List ComposeLine → List (String × List ComposeLine)
  | _, [] => []
  | _, .top key _ :: lines => serviceBlocks (key = "services") lines
  | true, .entry key _ :: lines =>
    (key, lines.takeWhile ComposeLine.isInner) :: serviceBlocks true lines
  | within, _ :: lines => serviceBlocks within lines

/-- The lines under a key of an entry. -/
def linesUnder (key : String) : Bool → List ComposeLine → List String
  | _, [] => []
  | _, .property other _ :: lines => linesUnder key (other = key) lines
  | true, .deeper text :: lines => text :: linesUnder key true lines
  | within, _ :: lines => linesUnder key within lines

/-- The values of `image` in an entry. -/
def ownImages (lines : List ComposeLine) : List String :=
  lines.filterMap fun
    | .property "image" rest => some (Text.strip rest)
    | _ => none

def ownEnvPaths (lines : List ComposeLine) : List String :=
  ((linesUnder "env_file" false lines).filter isItem).map itemText

def ownVolumePaths (lines : List ComposeLine) : List String :=
  ((linesUnder "volumes" false lines).filter isItem).map hostPath

def ownCheckUrls (lines : List ComposeLine) : List String :=
  (linesUnder "healthcheck" false lines).flatMap extractUrls

/-- The image of a record. -/
def ServiceRecord.composeImage (record : ServiceRecord) : String :=
  match Dict.get? record.metadata "compose" with
  | some (.obj compose) => Dict.strOr compose "image" ""
  | _ => ""

/-- A record of an entry whose values stand in that entry. -/
structure OwnRecord (record : ServiceRecord) (own : String × List ComposeLine) : Prop where
  name : record.name = own.1
  image : record.composeImage = "" ∨ record.composeImage ∈ ownImages own.2
  envPaths : ∀ path ∈ record.envPaths, path ∈ ownEnvPaths own.2
  volumePaths : ∀ path ∈ record.dataPaths ++ record.configPaths, path ∈ ownVolumePaths own.2
  healthCheckUrl : record.healthCheckUrl = "" ∨ record.healthCheckUrl ∈ ownCheckUrls own.2

/-- The lines that are read as those of an entry are its own. -/
structure ReadsOwn (read : String × List String) (own : String × List ComposeLine) : Prop where
  key : read.1 = own.1
  image : ∀ text ∈ (read.2.filter isImage).getLast?,
    imageValue text = "" ∨ imageValue text ∈ ownImages own.2
  envFile : ∀ text ∈ linesBehind .envFile none read.2, isItem text →
    itemText text ∈ ownEnvPaths own.2
  volumes : ∀ text ∈ linesBehind .volumes none read.2, isItem text →
    hostPath text ∈ ownVolumePaths own.2
  healthcheck : ∀ url ∈ ((linesBehind .healthcheck none read.2).filterMap checkedUrl).getLast?,
    url = "" ∨ url ∈ ownCheckUrls own.2

theorem readBlocks_named {lines : List ComposeLine}
    (h : ∀ line ∈ lines, line.header? ≠ some "") : ∀ block ∈ readBlocks lines, block.1 ≠ "" := by
  induction lines with
  | nil => exact nofun
  | cons line lines ih =>
    have hlines := ih (List.forall_mem_of_forall_mem_cons h)
    rw [readBlocks]
    cases hheader : line.header? with
    | none => exact hlines
    | some key =>
      refine List.forall_mem_cons.mpr ⟨?_, hlines⟩
      rintro rfl
      exact h line List.mem_cons_self hheader

/-- The one record of a block. -/
theorem blockRecords_eq (nodeId : String) {block : String × List String} (hkey : block.1 ≠ "") :
    ∃ record, blockRecords nodeId block = [record] ∧ record.name = block.1
      ∧ record.composeImage = ((block.2.filter isImage).map imageValue).getLast?.getD ""
      ∧ record.envPaths = ((linesBehind .envFile none block.2).filter isItem).map itemText
      ∧ record.configPaths = (((linesBehind .volumes none block.2).filter isItem).map
          hostPath).filter isConfigPath
      ∧ record.dataPaths = (((linesBehind .volumes none block.2).filter isItem).map
          hostPath).filter (!isConfigPath ·)
      ∧ record.healthCheckUrl =
        ((linesBehind .healthcheck none block.2).filterMap checkedUrl).getLast?.getD "" := by
  have hread := ComposeState.readFrom_ofBlock block []
  have hname : (ComposeState.ofBlock block []).currentName ≠ "" := hread.name ▸ hkey
  rw [blockRecords, ComposeState.flush, if_neg hname]
  exact ⟨_, congrArg (· ++ _) hread.records, hread.name, Eq.trans rfl hread.image, hread.env,
    hread.config, hread.data, hread.url⟩

/-- A record of a block has the values of an entry exactly when the lines of the block do. -/
theorem ownRecord_iff {record : ServiceRecord} {nodeId : String} {block : String × List String}
    (hkey : block.1 ≠ "") (own : String × List ComposeLine)
    (h : blockRecords nodeId block = [record]) : OwnRecord record own ↔ ReadsOwn block own := by
  obtain ⟨record', h', hname, himage, henv, hconfig, hdata, hurl⟩ := blockRecords_eq nodeId hkey
  obtain rfl : record' = record := (List.cons.inj (h'.symm.trans h)).1
  have hvolumes : ∀ path, path ∈ record'.dataPaths ++ record'.configPaths ↔
      path ∈ ((linesBehind .volumes none block.2).filter isItem).map hostPath := by
    intro path
    rw [List.mem_append, hconfig, hdata, List.mem_filter, List.mem_filter]
    cases isConfigPath path <;> simp
  have hlast : ∀ {values : List String} {known : List String},
      (values.getLast?.getD "" = "" ∨ values.getLast?.getD "" ∈ known) ↔
        ∀ value ∈ values.getLast?, value = "" ∨ value ∈ known := by
    intro values known
    cases values.getLast? <;> simp
  constructor
  · rintro ⟨hname', himage', henv', hvolumes', hurl'⟩
    refine ⟨hname.symm.trans hname', ?_, ?_, ?_, ?_⟩
    · intro text htext
      rw [himage, hlast, List.getLast?_map] at himage'
      exact himage' _ (Option.mem_map_of_mem imageValue htext)
    · intro text htext hitem
      exact henv' _ (henv ▸ List.mem_map_of_mem (List.mem_filter.mpr ⟨htext, hitem⟩))
    · intro text htext hitem
      exact hvolumes' _ ((hvolumes _).mpr (List.mem_map_of_mem (List.mem_filter.mpr ⟨htext, hitem⟩)))
    · rwa [hurl, hlast] at hurl'
  · rintro ⟨hname', himage', henv', hvolumes', hurl'⟩
    refine ⟨hname.trans hname', ?_, ?_, ?_, ?_⟩
    · rw [himage, hlast, List.getLast?_map]
      intro value hvalue
      obtain ⟨text, htext, rfl⟩ := Option.mem_map.mp hvalue
      exact himage' text htext
    · intro path hpath
      rw [henv] at hpath
      obtain ⟨text, htext, rfl⟩ := List.mem_map.mp hpath
      exact henv' text (List.mem_filter.mp htext).1 (List.mem_filter.mp htext).2
    · intro path hpath
      obtain ⟨text, htext, rfl⟩ := List.mem_map.mp ((hvolumes path).mp hpath)
      exact hvolumes' text (List.mem_filter.mp htext).1 (List.mem_filter.mp htext).2
    · rwa [hurl, hlast]

/-- **The records are those of the services exactly when the lines that are
read as a service's are its own.** -/
theorem compose_services_iff (nodeId : String) {lines : List ComposeLine} {text : String}
    (h : SpellsCompose lines text) :
    List.Forall₂ OwnRecord (parseCompose text nodeId) (serviceBlocks false lines) ↔
      List.Forall₂ ReadsOwn (readBlocks lines) (serviceBlocks false lines) := by
  rw [parseCompose_eq nodeId h]
  have hblocks := readBlocks_named (header?_ne_of_spelled h)
  generalize readBlocks lines = blocks at hblocks ⊢
  generalize serviceBlocks false lines = owns
  induction blocks generalizing owns with
  | nil => simp
  | cons block blocks ih =>
    obtain ⟨hkey, hblocks⟩ := List.forall_mem_cons.mp hblocks
    obtain ⟨record, hrecord, -⟩ := blockRecords_eq nodeId hkey
    rw [List.flatMap_cons, hrecord, List.singleton_append]
    cases owns with
    | nil => simp
    | cons own owns =>
      rw [List.forall₂_cons, List.forall₂_cons]
      exact and_congr (ownRecord_iff hkey own hrecord) (ih hblocks owns)

/-- A file with one service. -/
theorem one_service_read :
    List.Forall₂ OwnRecord
      (parseCompose "services:\n  web:\n    image: nginx\n    env_file:\n      - web.env\n" "n1")
      (serviceBlocks false [.top "services" "", .entry "web" "", .property "image" " nginx",
        .property "env_file" "", .deeper "- web.env"]) := by
  refine (compose_services_iff "n1" ?_).mpr ?_
  · have hlines : (Text.splitLines
          "services:\n  web:\n    image: nginx\n    env_file:\n      - web.env\n").filter
          (fun raw => Text.strip (Text.rstrip raw) ≠ "") =
        ["services:", "  web:", "    image: nginx", "    env_file:", "      - web.env"] := by
      decide +kernel
    rw [SpellsCompose, hlines]
    refine .cons ⟨⟨⟨'s', _, rfl, by decide, by decide⟩, by decide, .inl rfl⟩, rfl, 's', _, rfl, rfl⟩
      (.cons ⟨⟨⟨'w', _, rfl, by decide, by decide⟩, by decide, .inl rfl⟩, rfl, 'w', _, rfl, rfl⟩
      (.cons ⟨⟨⟨'i', _, rfl, by decide, by decide⟩, by decide, .inr rfl⟩, rfl, 'i', _, rfl, rfl⟩
      (.cons ⟨⟨⟨'e', _, rfl, by decide, by decide⟩, by decide, .inl rfl⟩, rfl, 'e', _, rfl, rfl⟩
      (.cons ⟨by decide, 6, .inl le_rfl, rfl, '-', _, rfl, rfl⟩ .nil))))
  · refine .cons ⟨rfl, by decide +kernel, ?_, nofun, nofun⟩ .nil
    decide +kernel

/-- A volume of the file is taken for a service. -/
theorem volume_read_as_service :
    SpellsCompose [.top "services" "", .entry "web" "", .property "image" " nginx",
        .top "volumes" "", .entry "data" ""]
      "services:\n  web:\n    image: nginx\nvolumes:\n  data:\n"
    ∧ ¬ List.Forall₂ OwnRecord
      (parseCompose "services:\n  web:\n    image: nginx\nvolumes:\n  data:\n" "n1")
      (serviceBlocks false [.top "services" "", .entry "web" "", .property "image" " nginx",
        .top "volumes" "", .entry "data" ""]) := by
  constructor
  · have hlines : (Text.splitLines "services:\n  web:\n    image: nginx\nvolumes:\n  data:\n").filter
          (fun raw => Text.strip (Text.rstrip raw) ≠ "") =
        ["services:", "  web:", "    image: nginx", "volumes:", "  data:"] := by
      decide +kernel
    rw [SpellsCompose, hlines]
    exact .cons ⟨⟨⟨'s', _, rfl, by decide, by decide⟩, by decide, .inl rfl⟩, rfl, 's', _, rfl, rfl⟩
      (.cons ⟨⟨⟨'w', _, rfl, by decide, by decide⟩, by decide, .inl rfl⟩, rfl, 'w', _, rfl, rfl⟩
      (.cons ⟨⟨⟨'i', _, rfl, by decide, by decide⟩, by decide, .inr rfl⟩, rfl, 'i', _, rfl, rfl⟩
      (.cons ⟨⟨⟨'v', _, rfl, by decide, by decide⟩, by decide, .inl rfl⟩, rfl, 'v', _, rfl, rfl⟩
      (.cons ⟨⟨⟨'d', _, rfl, by decide, by decide⟩, by decide, .inl rfl⟩, rfl, 'd', _, rfl, rfl⟩
        .nil))))
  · intro h
    have hlength : (parseCompose "services:\n  web:\n    image: nginx\nvolumes:\n  data:\n"
        "n1").length = 2 := by
      decide +kernel
    cases hlength.symm.trans h.length_eq

end Hmn
