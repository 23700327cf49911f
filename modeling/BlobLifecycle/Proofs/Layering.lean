import BlobLifecycle.Proofs.Decimals
import BlobLifecycle.Proofs.Documents
import BlobLifecycle.Settings.Load
import Mathlib

/-! Settings by layers: each is the conversion of the value in the highest layer that has it, and
what lies below that layer does not matter. -/
namespace BlobLifecycle.Settings

def value (s : Settings) : Key → RawValue
  | .inlineMaxBytes => .integer s.inlineMaxBytes
  | .mediumMaxBytes => .integer s.mediumMaxBytes
  | .graceInterval => .integer s.graceInterval
  | .batchSize => .integer s.batchSize
  | .sweepInterval => .integer s.sweepInterval
  | .databasePath => .text s.databasePath
  | .largeStoreDirectory => .text s.largeStoreDirectory

/-- Numbers of settings are held as signed words before they are read. -/
def Encodable (s : Settings) : Prop :=
  ∀ key n, s.value key = .integer n → Word.least ≤ n ∧ n ≤ Word.greatest

inductive Kind where
  | signed
  | unsigned
  | text
  deriving DecidableEq, Repr

def Key.kind : Key → Kind
  | .inlineMaxBytes | .mediumMaxBytes | .graceInterval => .signed
  | .batchSize | .sweepInterval => .unsigned
  | .databasePath | .largeStoreDirectory => .text

def Key.convert? (key : Key) (v : RawValue) : Option RawValue :=
  match key.kind with
  | .signed => v.toSigned?.map .integer
  | .unsigned => v.toUnsigned?.map fun n => .integer n
  | .text => v.toText?.map .text

def Key.HasPart (key : Key) (name : List Char) : Prop :=
  ∃ selector, selector ≠ [] ∧ name = key.name.toList ++ selector ∧
    Layer.isSelector (selector.length + 1) selector = true

/-- The variable has the setting's name, whatever the case of its letters. -/
def Key.IsNamed (key : Key) (name : String) : Prop :=
  Layer.lowerName name.toList = Layer.variableStart ++ key.name.toList

instance (key : Key) (name : String) : Decidable (key.IsNamed name) :=
  inferInstanceAs (Decidable (_ = _))

def SettingsFile.entries? (file : SettingsFile) : Option Toml.Table :=
  match file.text with
  | none => some []
  | some text =>
    match Toml.parse? .v11 (String.ofList (Toml.skipByteOrderMark text.toList)) with
    | some (.table _ entries) => some entries
    | _ => none

def fileEntries? (file : Option SettingsFile) : Option Toml.Table :=
  (file.map SettingsFile.entries?).getD (some [])

def environmentText? (environment : List (String × Bytes)) (key : Key) : Option String :=
  (environment.find? fun entry => key.IsNamed entry.1).bind fun entry => utf8? entry.2

def chosen (defaults : Settings) (entries : Toml.Table) (environment : List (String × Bytes))
    (key : Key) : RawValue :=
  match environmentText? environment key, entries.lookup key.name with
  | some text, _ => .ofText text
  | none, some v => .ofToml v
  | none, none => defaults.value key

/-- The variables of the program are text, at most one of them names a setting, and no name
addresses a part of a setting. -/
structure Plain (entries : Toml.Table) (environment : List (String × Bytes)) : Prop where
  text : ∀ entry ∈ environment, Layer.variableStart <+: Layer.lowerName entry.1.toList →
    (utf8? entry.2).isSome
  single : environment.Pairwise fun entry later =>
    ∀ key : Key, key.IsNamed entry.1 → ¬key.IsNamed later.1
  wholeEntries : ∀ entry ∈ entries, ∀ key : Key, ¬key.HasPart entry.1.toList
  wholeVariables : ∀ entry ∈ environment, ∀ name, Layer.lowerName entry.1.toList =
    Layer.variableStart ++ name → ∀ key : Key, ¬key.HasPart name

theorem Key.forall_iff {P : Key → Prop} : (∀ key, P key) ↔ P .inlineMaxBytes ∧ P .mediumMaxBytes ∧
    P .graceInterval ∧ P .batchSize ∧ P .sweepInterval ∧ P .databasePath ∧
    P .largeStoreDirectory := by
  constructor
  · intro all
    exact ⟨all _, all _, all _, all _, all _, all _, all _⟩
  · rintro ⟨_, _, _, _, _, _, _⟩ key
    cases key <;> assumption

instance {P : Key → Prop} [∀ key, Decidable (P key)] : Decidable (∀ key, P key) :=
  decidable_of_iff _ Key.forall_iff.symm

theorem ofLayers_eq_some {layers : List Layer} {s : Settings} : ofLayers? layers = some s ↔
    ∀ key : Key, (highest? layers key).bind key.convert? = some (s.value key) := by
  obtain ⟨⟩ := s
  rw [Key.forall_iff]
  simp [ofLayers?, Key.convert?, Key.kind, value, Option.bind_eq_some_iff, ← and_assoc]

theorem ofLayers_isSome {layers : List Layer} : (ofLayers? layers).isSome ↔
    ∀ key : Key, ((highest? layers key).bind key.convert?).isSome := by
  rw [Key.forall_iff]
  simp only [ofLayers?, Option.pure_def, Option.bind_eq_bind, Option.isSome_iff_exists,
    Option.bind_eq_some_iff, Option.some.injEq, ↓existsAndEq, and_true, exists_and_left,
    exists_and_right, Key.convert?, Key.kind, Option.map_eq_some_iff, Option.map_bind,
    Function.comp_apply, Option.map_some]
  -- Each setting's own part is taken out of the chain.
  simp only [← and_assoc, exists_and_right]

theorem Key.ofName_iff {name : List Char} {key : Key} :
    Key.ofName? name = some key ↔ name = key.name.toList := by
  constructor
  · intro found
    have same := List.find?_some (p := fun k : Key => k.name.toList = name) found
    exact (of_decide_eq_true same).symm
  · rintro rfl
    cases key <;> decide

namespace Layer

theorem name_bare (key : Key) : key.name.toList.all isNameChar = true := by
  cases key <;> decide

theorem isSelector_head {bound : Nat} {c : Char} {rest : List Char}
    (selects : isSelector bound (c :: rest) = true) : isNameChar c = false := by
  unfold isSelector at selects
  split at selects
  · cases selects
  · next empty => cases empty
  · next point => cases point; rfl
  · next bracket => cases bracket; rfl
  · cases selects

/-- A point or a bracket, which begins a selector, is in no name of a setting. -/
theorem bare_of_hasPart {key : Key} {name : List Char} (part : key.HasPart name) :
    ¬name.all isNameChar = true := by
  obtain ⟨selector, nonempty, rfl, selects⟩ := part
  obtain ⟨c, rest, rfl⟩ := List.exists_cons_of_ne_nil nonempty
  intro bare
  have head := List.all_eq_true.1 bare c (by simp)
  rw [isSelector_head selects] at head
  cases head

theorem not_hasPart_of_bare {name : String} {rest : List Char}
    (bare : (lowerName name.toList).all isNameChar = true)
    (lowered : lowerName name.toList = variableStart ++ rest) (key : Key) : ¬key.HasPart rest := by
  intro part
  rw [lowered, List.all_append, Bool.and_eq_true] at bare
  exact bare_of_hasPart part bare.2

theorem entry_name (key : Key) (v : RawValue) : entry? key.name.toList v = some (key, v) := by
  have bare := List.all_eq_true.1 (name_bare key)
  unfold entry?
  dsimp only
  rw [drop_takeWhile, List.dropWhile_eq_nil_iff.2 bare, List.takeWhile_eq_self_iff.2 bare]
  simp [Key.ofName_iff]

/-- An entry for a setting comes from the setting's name, or else from one of its parts. -/
theorem entry_some {name : List Char} {v w : RawValue} {key : Key}
    (entered : entry? name v = some (key, w)) :
    (name = key.name.toList ∧ v = w) ∨ key.HasPart name := by
  have parts := List.takeWhile_append_dropWhile (p := isNameChar) (l := name)
  unfold entry? at entered
  dsimp only at entered
  rw [drop_takeWhile] at entered
  split at entered
  · next ended =>
    obtain ⟨k, found, same⟩ := Option.map_eq_some_iff.1 entered
    cases same
    rw [ended, List.append_nil, Key.ofName_iff.1 found] at parts
    exact .inl ⟨parts.symm, rfl⟩
  · next behind =>
    split at entered
    · next selects =>
      obtain ⟨k, found, same⟩ := Option.map_eq_some_iff.1 entered
      cases same
      exact .inr ⟨_, behind, Key.ofName_iff.1 found ▸ parts.symm, selects⟩
    · cases entered

theorem entry_eq_some {name : List Char} {v w : RawValue} {key : Key} (whole : ¬key.HasPart name) :
    entry? name v = some (key, w) ↔ name = key.name.toList ∧ v = w := by
  constructor
  · intro entered
    exact (entry_some entered).resolve_right whole
  · rintro ⟨rfl, rfl⟩
    exact entry_name key v

theorem get?_eq {l : Layer} {key : Key} {o : Option RawValue}
    (held : ∀ v, (key, v) ∈ l ↔ o = some v) : l.get? key = o := by
  cases found : l.get? key with
  | some v =>
    obtain ⟨before, later, same, -⟩ := List.lookup_eq_some_iff.1 found
    exact ((held v).1 (List.mem_reverse.1 (same ▸ by simp))).symm
  | none =>
    cases o with
    | none => rfl
    | some v =>
      have absent := List.lookup_eq_none_iff.1 found _ (List.mem_reverse.2 ((held v).2 rfl))
      simp at absent

theorem variableName?_eq_some {name : String} {rest : List Char} :
    variableName? name = some rest ↔ lowerName name.toList = variableStart ++ rest := by
  unfold variableName?
  dsimp only
  split
  · next starts =>
    obtain ⟨suffix, same⟩ := List.isPrefixOf_iff_prefix.1 starts
    simp [← same]
  · next apart =>
    simp only [reduceCtorEq, false_iff]
    intro same
    exact apart (List.isPrefixOf_iff_prefix.2 ⟨rest, same.symm⟩)

/-- The entry for a setting in a file's layer is the one of the setting's name. -/
theorem get?_file {entries : Toml.Table} (distinct : entries.Distinct)
    (whole : ∀ entry ∈ entries, ∀ key : Key, ¬key.HasPart entry.1.toList) (key : Key) :
    get? (entries.filterMap fun (name, v) => entry? name.toList (.ofToml v)) key =
      (entries.lookup key.name).map RawValue.ofToml := by
  apply get?_eq
  intro v
  simp only [List.mem_filterMap, Option.map_eq_some_iff, distinct.lookup_iff]
  constructor
  · rintro ⟨⟨name, given⟩, held, entered⟩
    obtain ⟨same, rfl⟩ := (entry_eq_some (whole _ held key)).1 entered
    exact ⟨given, String.toList_inj.1 same ▸ held, rfl⟩
  · rintro ⟨given, held, rfl⟩
    exact ⟨_, held, (entry_eq_some (whole _ held key)).2 ⟨rfl, rfl⟩⟩

end Layer

theorem environmentText_eq_some {environment : List (String × Bytes)} {key : Key} {text : String}
    (single : environment.Pairwise fun entry later =>
      ∀ key : Key, key.IsNamed entry.1 → ¬key.IsNamed later.1) :
    environmentText? environment key = some text ↔
      ∃ entry ∈ environment, key.IsNamed entry.1 ∧ utf8? entry.2 = some text := by
  unfold environmentText?
  induction environment with
  | nil => simp
  | cons entry rest ih =>
    obtain ⟨alone, single⟩ := List.pairwise_cons.1 single
    by_cases named : key.IsNamed entry.1
    · have others : ¬∃ later ∈ rest, key.IsNamed later.1 ∧ utf8? later.2 = some text := by
        rintro ⟨later, held, again, -⟩
        exact alone later held key named again
      simp [named, others]
    · simp [named, ih single]

namespace Layer

theorem filterMapM_of_some {α β : Type} {f : α → Option (Option β)} {g : α → Option β} {l : List α}
    (given : ∀ a ∈ l, f a = some (g a)) : l.filterMapM f = some (l.filterMap g) := by
  induction l with
  | nil => rfl
  | cons a rest ih =>
    have later := ih fun b held => given b (by simp [held])
    rw [List.filterMapM_cons, given a (by simp), List.filterMap_cons]
    cases g a <;> simp [later]

theorem isSome_of_filterMapM {α β : Type} {f : α → Option (Option β)} {l : List α} {l' : List β}
    (mapped : l.filterMapM f = some l') : ∀ a ∈ l, (f a).isSome := by
  induction l generalizing l' with
  | nil => nofun
  | cons a rest ih =>
    rw [List.filterMapM_cons, Option.bind_eq_bind, Option.bind_eq_some_iff] at mapped
    obtain ⟨b, here, later⟩ := mapped
    refine List.forall_mem_cons.2 ⟨by simp [here], ?_⟩
    cases b with
    | none => exact ih later
    | some b =>
      obtain ⟨rest', later, -⟩ := Option.bind_eq_some_iff.1 later
      exact ih later

/-- A variable of the program gives the name behind the prefix and its text, which must be one. -/
def readVariable? (entry : String × Bytes) : Option (Option (List Char × String)) :=
  match variableName? entry.1 with
  | some name => (utf8? entry.2).map fun s => some (name, s)
  | none => some none

def ofVariables (environment : List (String × Bytes)) : Layer :=
  (environment.filterMap fun entry => (readVariable? entry).join).filterMap fun (name, s) =>
    entry? name (.ofText s)

theorem readVariable_isSome {entry : String × Bytes} : (readVariable? entry).isSome ↔
    (variableStart <+: lowerName entry.1.toList → (utf8? entry.2).isSome) := by
  unfold readVariable?
  cases found : variableName? entry.1 with
  | some name =>
    have starts : variableStart <+: lowerName entry.1.toList :=
      ⟨name, (variableName?_eq_some.1 found).symm⟩
    simp [starts]
  | none =>
    have apart : ¬variableStart <+: lowerName entry.1.toList := by
      rintro ⟨name, same⟩
      rw [variableName?_eq_some.2 same.symm] at found
      cases found
    simp [apart]

theorem ofEnvironment_eq_some {environment : List (String × Bytes)} {layer : Layer} :
    ofEnvironment? environment = some layer ↔
      (∀ entry ∈ environment, variableStart <+: lowerName entry.1.toList →
        (utf8? entry.2).isSome) ∧ ofVariables environment = layer := by
  simp only [← readVariable_isSome]
  change (environment.filterMapM readVariable?).bind (fun named => some (named.filterMap
    fun (name, s) => entry? name (.ofText s))) = some layer ↔ _
  have mapped : (∀ entry ∈ environment, (readVariable? entry).isSome) →
      environment.filterMapM readVariable? =
        some (environment.filterMap fun entry => (readVariable? entry).join) := by
    intro each
    apply filterMapM_of_some
    intro entry held
    obtain ⟨read, same⟩ := Option.isSome_iff_exists.1 (each entry held)
    rw [same]
    rfl
  constructor
  · intro read
    obtain ⟨named, found, same⟩ := Option.bind_eq_some_iff.1 read
    have each := isSome_of_filterMapM found
    rw [mapped each] at found
    cases found
    exact ⟨each, Option.some.inj same⟩
  · rintro ⟨each, rfl⟩
    rw [mapped each]
    rfl

theorem mem_ofVariables {environment : List (String × Bytes)} {key : Key} {v : RawValue} :
    (key, v) ∈ ofVariables environment ↔ ∃ entry ∈ environment, ∃ name text,
      lowerName entry.1.toList = variableStart ++ name ∧ utf8? entry.2 = some text ∧
        entry? name (.ofText text) = some (key, v) := by
  have read (entry : String × Bytes) (name : List Char) (text : String) :
      (readVariable? entry).join = some (name, text) ↔
        lowerName entry.1.toList = variableStart ++ name ∧ utf8? entry.2 = some text := by
    rw [← variableName?_eq_some]
    unfold readVariable?
    cases variableName? entry.1 <;> cases utf8? entry.2 <;> simp
  simp only [ofVariables, List.mem_filterMap, Prod.exists, read]
  grind

theorem get?_ofVariables {entries : Toml.Table} {environment : List (String × Bytes)}
    (plain : Plain entries environment) (key : Key) :
    (ofVariables environment).get? key =
      (environmentText? environment key).map RawValue.ofText := by
  apply get?_eq
  intro v
  simp only [mem_ofVariables, Option.map_eq_some_iff, environmentText_eq_some plain.single]
  constructor
  · rintro ⟨entry, held, name, text, lowered, spelled, entered⟩
    have whole := plain.wholeVariables entry held name lowered key
    obtain ⟨rfl, rfl⟩ := (entry_eq_some whole).1 entered
    exact ⟨text, ⟨entry, held, lowered, spelled⟩, rfl⟩
  · rintro ⟨text, ⟨entry, held, named, spelled⟩, rfl⟩
    exact ⟨entry, held, _, text, named, spelled, entry_name key _⟩

end Layer

section

variable {defaults : Settings} {file : Option SettingsFile} {entries : Toml.Table}
  {environment : List (String × Bytes)}

theorem fileLayer_of_entries (read : fileEntries? file = some entries)
    (whole : ∀ entry ∈ entries, ∀ key : Key, ¬key.HasPart entry.1.toList) :
    ∃ layer, (file.map SettingsFile.layer?).getD (some []) = some layer ∧
      ∀ key : Key, layer.get? key = (entries.lookup key.name).map RawValue.ofToml := by
  obtain _ | ⟨path, _ | text⟩ := file
  · cases read
    exact ⟨[], rfl, fun _ => rfl⟩
  · cases read
    exact ⟨[], rfl, fun _ => rfl⟩
  · simp only [fileEntries?, SettingsFile.entries?, Option.map_some, Option.getD_some] at read
    split at read
    · next parsed =>
      cases read
      refine ⟨_, ?_, Layer.get?_file (Toml.parse_distinct parsed) whole⟩
      simp [SettingsFile.layer?, parsed, Layer.ofDocument?]
    · cases read

theorem environmentLayer_of_plain (plain : Plain entries environment) :
    ∃ layer, Layer.ofEnvironment? environment = some layer ∧
      ∀ key : Key, layer.get? key = (environmentText? environment key).map RawValue.ofText :=
  ⟨_, Layer.ofEnvironment_eq_some.2 ⟨plain.text, rfl⟩, Layer.get?_ofVariables plain⟩

theorem get?_ofSettings (s : Settings) (key : Key) :
    (Layer.ofSettings s).get? key = some (s.value key) := by
  cases key <;> rfl

/-- Loading from sources that can be read asks only for the chosen values. -/
theorem loadOver_of_plain (defaults : Settings) (read : fileEntries? file = some entries)
    (plain : Plain entries environment) : ∃ layers,
      (∀ key, highest? layers key = some (chosen defaults entries environment key)) ∧
      loadOver defaults file environment =
        ((ofLayers? layers).elim (.error .unusable) .ok : Except LoadFault Settings) := by
  obtain ⟨fileLayer, fileRead, fileHas⟩ := fileLayer_of_entries read plain.wholeEntries
  obtain ⟨environmentLayer, environmentRead, environmentHas⟩ := environmentLayer_of_plain plain
  refine ⟨[environmentLayer, fileLayer, .ofSettings defaults], fun key => ?_, ?_⟩
  · unfold chosen
    simp only [highest?, List.findSome?, environmentHas, fileHas, get?_ofSettings]
    cases environmentText? environment key <;> cases entries.lookup key.name <;> rfl
  · unfold loadOver
    simp only [fileRead, environmentRead]
    cases ofLayers? [environmentLayer, fileLayer, .ofSettings defaults] <;> rfl

theorem ofLayers_congr {layers layers' : List Layer}
    (same : ∀ key, highest? layers key = highest? layers' key) :
    ofLayers? layers = ofLayers? layers' := by
  unfold ofLayers?
  simp only [same]

theorem loadOver_eq_ok (read : fileEntries? file = some entries)
    (plain : Plain entries environment) {s : Settings} :
    loadOver defaults file environment = .ok s ↔
      ∀ key : Key, key.convert? (chosen defaults entries environment key) = some (s.value key) := by
  obtain ⟨layers, highest, loaded⟩ := loadOver_of_plain defaults read plain
  have found : loadOver defaults file environment = .ok s ↔ ofLayers? layers = some s := by
    rw [loaded]
    cases ofLayers? layers <;> simp
  simp [found, ofLayers_eq_some, highest]

theorem loadOver_succeeds (defaults : Settings) (read : fileEntries? file = some entries)
    (plain : Plain entries environment) : (∃ s, loadOver defaults file environment = .ok s) ↔
      ∀ key : Key, (key.convert? (chosen defaults entries environment key)).isSome := by
  obtain ⟨layers, highest, loaded⟩ := loadOver_of_plain defaults read plain
  have found : (∃ s, loadOver defaults file environment = .ok s) ↔ (ofLayers? layers).isSome := by
    rw [loaded]
    cases ofLayers? layers <;> simp
  simp [found, ofLayers_isSome, highest]

theorem loadOver_congr {defaults' : Settings} {file' : Option SettingsFile} {entries' : Toml.Table}
    {environment' : List (String × Bytes)} (read : fileEntries? file = some entries)
    (plain : Plain entries environment) (read' : fileEntries? file' = some entries')
    (plain' : Plain entries' environment')
    (same : ∀ key, chosen defaults entries environment key =
      chosen defaults' entries' environment' key) :
    loadOver defaults file environment = loadOver defaults' file' environment' := by
  obtain ⟨layers, highest, loaded⟩ := loadOver_of_plain defaults read plain
  obtain ⟨layers', highest', loaded'⟩ := loadOver_of_plain defaults' read' plain'
  have alike : ofLayers? layers = ofLayers? layers' :=
    ofLayers_congr fun key => by rw [highest, same, highest']
  rw [loaded, loaded', alike]

theorem Encodable.convert (encodable : defaults.Encodable) (key : Key) :
    key.convert? (defaults.value key) = some (defaults.value key) := by
  have within := encodable key
  have wider : ∀ n, n ≤ Word.greatest → n ≤ Word.greatestUnsigned :=
    fun n small => Int.le_trans small (by decide : Word.greatest ≤ Word.greatestUnsigned)
  cases key <;> simp_all [Key.convert?, Key.kind, value, RawValue.toSigned?, RawValue.toUnsigned?,
    RawValue.toInteger?, RawValue.toText?]

/-- Every setting is the conversion of the value in its highest layer, and all of them must
convert; nothing else of the layers matters. -/
theorem settings_of_highest_layer (encodable : defaults.Encodable)
    (read : fileEntries? file = some entries) (plain : Plain entries environment) :
    (∀ s, loadOver defaults file environment = .ok s ↔ ∀ key : Key,
      key.convert? (chosen defaults entries environment key) = some (s.value key)) ∧
    ((∃ s, loadOver defaults file environment = .ok s) ↔ ∀ key : Key,
      (key.convert? (chosen defaults entries environment key)).isSome) ∧
    (∀ key : Key, environmentText? environment key = none → entries.lookup key.name = none →
      key.convert? (chosen defaults entries environment key) = some (defaults.value key)) ∧
    (∀ defaults' file' entries' environment', fileEntries? file' = some entries' →
      Plain entries' environment' → (∀ key, chosen defaults entries environment key =
        chosen defaults' entries' environment' key) →
      loadOver defaults file environment = loadOver defaults' file' environment') ∧
    ∀ path, loadOver defaults (some ⟨path, none⟩) environment =
      loadOver defaults (some ⟨path, some ""⟩) environment := by
  refine ⟨fun s => loadOver_eq_ok read plain, loadOver_succeeds defaults read plain, ?_, ?_, ?_⟩
  · intro key unset unwritten
    simpa [chosen, unset, unwritten] using encodable.convert key
  · intro defaults' file' entries' environment' read' plain' same
    exact loadOver_congr read plain read' plain' same
  · intro path
    rfl

/-- Names without points and brackets address no part. -/
theorem Plain.of_bare (text : ∀ entry ∈ environment,
      Layer.variableStart <+: Layer.lowerName entry.1.toList → (utf8? entry.2).isSome)
    (single : environment.Pairwise fun entry later =>
      ∀ key : Key, key.IsNamed entry.1 → ¬key.IsNamed later.1)
    (bareEntries : ∀ entry ∈ entries, entry.1.toList.all Layer.isNameChar = true)
    (bareVariables : ∀ entry ∈ environment,
      (Layer.lowerName entry.1.toList).all Layer.isNameChar = true) :
    Plain entries environment where
  text := text
  single := single
  wholeEntries entry held _ part := Layer.bare_of_hasPart part (bareEntries entry held)
  wholeVariables entry held _ lowered :=
    Layer.not_hasPart_of_bare (bareVariables entry held) lowered

end

theorem defaults_encodable (directory : String) : (Settings.defaults directory).Encodable := by
  intro key n same
  cases key <;> cases same <;> simp [Settings.defaults, Word.least, Word.greatest]

namespace Sample

def file : SettingsFile :=
  ⟨"blobvault.toml", some "inline_max_bytes = 'x'\nmedium_max_bytes = true\n[y]\n"⟩

def entries : Toml.Table :=
  [("inline_max_bytes", .text "x"), ("medium_max_bytes", .boolean true), ("y", .table .header [])]

def environment : List (String × Bytes) :=
  [("BlobVault_Inline_Max_Bytes", utf8 "50"), ("HOME", [0xff])]

end Sample

theorem overridden_text_ignored :
    (Settings.defaults "/data").Encodable ∧ fileEntries? (some Sample.file) = some Sample.entries ∧
      Plain Sample.entries Sample.environment ∧
      loadOver (.defaults "/data") (some Sample.file) Sample.environment =
        .ok { Settings.defaults "/data" with inlineMaxBytes := 50, mediumMaxBytes := 1 } := by
  have encodable := defaults_encodable "/data"
  have read : fileEntries? (some Sample.file) = some Sample.entries := by cbv
  have plain : Plain Sample.entries Sample.environment :=
    .of_bare (by decide +kernel) (by decide +kernel) (by decide +kernel) (by decide +kernel)
  refine ⟨encodable, read, plain, ?_⟩
  exact ((settings_of_highest_layer encodable read plain).1 _).2 (by decide +kernel)

/-- Names that address a part of a setting spoil the whole, though nothing sets it, and a reserved
key at the top level spoils the file. -/
theorem part_spoils_setting :
    let defaults := Settings.defaults "/data"
    let file : SettingsFile := ⟨"blobvault.toml", some "\"inline_max_bytes[-3].x\" = 1\n"⟩
    let entries := [("inline_max_bytes[-3].x", .integer 1)]
    let environment := [("BLOBVAULT_INLINE_MAX_BYTES.X", utf8 "3")]
    let dated : SettingsFile := ⟨"blobvault.toml", some "\"$__toml_private_datetime\" = 1\n"⟩
    (fileEntries? (some file) = some entries ∧
      (∀ key, chosen defaults entries [] key = defaults.value key) ∧
      loadOver defaults (some file) [] = .error .unusable) ∧
    ((∀ key, chosen defaults [] environment key = defaults.value key) ∧
      loadOver defaults none environment = .error .unusable) ∧
    loadOver defaults (some dated) [] = .error (.unreadable (some "blobvault.toml")) := by
  intro defaults file entries environment dated
  have composite : file.layer? = some [(.inlineMaxBytes, .composite)] := by
    dsimp only [file]
    cbv
  have refused : dated.layer? = none := by
    dsimp only [dated]
    cbv
  refine ⟨⟨?_, by decide +kernel, ?_⟩, ⟨by decide +kernel, by decide +kernel⟩, ?_⟩
  · dsimp only [file, entries]
    cbv
  · simp only [loadOver, Option.map_some, Option.getD_some, composite]
    decide +kernel
  · simp [loadOver, refused, dated]

end BlobLifecycle.Settings
