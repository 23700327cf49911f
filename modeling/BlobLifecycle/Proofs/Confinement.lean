import BlobLifecycle.Proofs.Discard
import BlobLifecycle.Proofs.FieldReads
import BlobLifecycle.Proofs.Identifiers

/-! The bulk store on a file system, where locators come as bytes from anywhere. Directories of
different locators are apart and stand right below one directory, so that reads and deletions by
path do what they do by locator and touch nothing else. -/
namespace BlobLifecycle

inductive Node where
  | file (content : Bytes)
  | directory
  deriving DecidableEq, Repr

/-- A file system by its places. What stands somewhere stands in a directory. -/
structure Disk where
  node? : Place → Option Node
  rooted : ∀ place name, node? (place ++ [name]) ≠ none → node? place = some .directory

namespace Disk

inductive Fault where
  | missing
  | otherKind
  deriving DecidableEq, Repr

def file? (disk : Disk) (place : Place) : Option Bytes :=
  match disk.node? place with
  | some (.file content) => some content
  | _ => none

def isObstructed (disk : Disk) (place : Place) : Bool :=
  place.inits.dropLast.any fun above => (disk.file? above).isSome

def openFile (disk : Disk) (place : Place) : Except Fault Bytes :=
  if disk.isObstructed place then .error .otherKind
  else match disk.node? place with
    | some (.file content) => .ok content
    | some .directory => .error .otherKind
    | none => .error .missing

/-- The file system without this place and all that is below it. -/
def without (disk : Disk) (place : Place) : Disk where
  node? other := if place <+: other then none else disk.node? other
  rooted := by
    intro above name present
    split at present
    · exact absurd rfl present
    · next aside =>
      have above_aside : ¬place <+: above := fun here => aside (here.trans (List.prefix_append ..))
      rw [if_neg above_aside]
      exact disk.rooted above name present

def removeTree (disk : Disk) (place : Place) : Except Fault Unit × Disk :=
  if disk.isObstructed place then (.error .otherKind, disk)
  else match disk.node? place with
    | some .directory => (.ok (), disk.without place)
    | some (.file _) => (.error .otherKind, disk)
    | none => (.error .missing, disk)

end Disk

namespace LargeStore

def partialFile : String := "data.bin.partial"

/-- Only what is missing was not found. -/
def faultAt (locator : Locator) (path : String) : Disk.Fault → BlobError
  | .missing => .notFound .large locator
  | .otherKind => .storage (.io path)

def readFrom (store : LargeStore) (disk : Disk) (locator : Locator) : Except BlobError Bytes := do
  let path ← store.directoryOf locator
  let file := Path.join path contentFile
  (disk.openFile (Place.ofPath file)).mapError (faultAt locator file)

def deleteFrom (store : LargeStore) (disk : Disk) (locator : Locator) :
    Except BlobError Unit × Disk :=
  match store.directoryOf locator with
  | .error e => (.error e, disk)
  | .ok path =>
    let (result, disk) := disk.removeTree (Place.ofPath path)
    (result.mapError (faultAt locator path), disk)

end LargeStore

namespace Disk

def object? (disk : Disk) (place : Place) : Option LargeObject :=
  if disk.isObstructed place then some .plainFile
  else match disk.node? place with
    | some .directory => some (.directory
        ⟨disk.file? (place ++ [LargeStore.contentFile]),
          (disk.node? (place ++ [LargeStore.partialFile])).isSome,
          (disk.file? (place ++ [LargeStore.metadataFile])).bind utf8?⟩)
    | some (.file _) => some .plainFile
    | none => none

/-- The objects of the store stand on the file system where their locators lead to. -/
structure Carries (disk : Disk) (store : LargeStore) : Prop where
  objects : ∀ locator path, store.directoryOf locator = .ok path →
    disk.object? (Place.ofPath path) = store.object? locator
  contents : ∀ locator path, store.directoryOf locator = .ok path →
    disk.node? (Place.ofPath path ++ [LargeStore.contentFile]) ≠ some .directory

variable {disk disk' : Disk} {place other : Place}

theorem inits_concat (place : Place) (name : String) :
    (place ++ [name]).inits = place.inits ++ [place ++ [name]] := by
  simp [List.inits_append]

theorem inits_dropLast (place : Place) : place.inits = place.inits.dropLast ++ [place] := by
  rcases List.eq_nil_or_concat place with rfl | ⟨above, name, rfl⟩
  · rfl
  · rw [List.concat_eq_append, inits_concat, List.dropLast_concat]

/-- Below a place there is a file above if there is one above the place or at it. -/
theorem isObstructed_concat (disk : Disk) (place : Place) (name : String) :
    disk.isObstructed (place ++ [name]) = (disk.isObstructed place || (disk.file? place).isSome) := by
  rw [isObstructed, inits_concat, List.dropLast_concat, inits_dropLast, List.any_append,
    List.any_cons, List.any_nil, Bool.or_false]
  rfl

theorem file?_congr (same : disk'.node? place = disk.node? place) :
    disk'.file? place = disk.file? place := by
  rw [file?, file?, same]

theorem above_of_mem {above : Place} (here : above ∈ place.inits.dropLast) :
    above <+: place ∧ ¬place <+: above := by
  rcases List.eq_nil_or_concat place with rfl | ⟨parent, name, rfl⟩
  · cases here
  · rw [List.concat_eq_append, inits_concat, List.dropLast_concat, List.mem_inits] at here
    rw [List.concat_eq_append]
    refine ⟨here.trans (List.prefix_append ..), fun back => ?_⟩
    have short := here.length_le
    have long := back.length_le
    rw [List.length_append, List.length_singleton] at long
    omega

theorem isObstructed_congr (same : ∀ above, above <+: place → ¬place <+: above →
    disk'.node? above = disk.node? above) : disk'.isObstructed place = disk.isObstructed place := by
  rw [isObstructed, isObstructed, Bool.eq_iff_iff, List.any_eq_true, List.any_eq_true]
  refine exists_congr fun above => and_congr_right fun here => ?_
  obtain ⟨leads, proper⟩ := above_of_mem here
  rw [file?_congr (same above leads proper)]

/-- An object is what is at its place, above it and right below. -/
theorem object?_congr (same : ∀ above, above <+: place → disk'.node? above = disk.node? above)
    (below : ∀ name, disk'.node? (place ++ [name]) = disk.node? (place ++ [name])) :
    disk'.object? place = disk.object? place := by
  have obstructed := isObstructed_congr fun above leads _ => same above leads
  simp only [object?, obstructed, same place (List.prefix_refl place), below, file?_congr (below _)]

theorem without_of_aside (aside : ¬place <+: other) :
    (disk.without place).node? other = disk.node? other := if_neg aside

theorem object?_without (reached : disk.isObstructed place = false) :
    (disk.without place).object? place = none := by
  have kept : (disk.without place).isObstructed place = false :=
    (isObstructed_congr fun _ _ proper => without_of_aside proper).trans reached
  have gone : (disk.without place).node? place = none := if_pos (List.prefix_refl place)
  simp [object?, kept, gone]

theorem removeTree_cases (disk : Disk) (place : Place) :
    (disk.removeTree place).2 = disk ∨ (disk.removeTree place).2 = disk.without place := by
  unfold removeTree
  split
  · exact .inl rfl
  · split
    · exact .inr rfl
    · exact .inl rfl
    · exact .inl rfl

end Disk

namespace LargeStore

variable {store : LargeStore} {disk : Disk} {locator other : Locator} {path path' : String}

theorem contentFile_isName : Path.IsName contentFile := ⟨by decide, by decide⟩

/-- The directory of a locator stands right below the one that holds all objects, under the text of
the identifier. -/
theorem directoryOf_eq_ok : store.directoryOf locator = .ok path ↔
    ∃ name, Uuid.text? locator = some name ∧ path = Path.join (objectsIn store.root) name := by
  unfold directoryOf
  cases Uuid.text? locator <;> simp [eq_comm]

theorem place_of_directory (named : store.directoryOf locator = .ok path) :
    ∃ name, Uuid.Names locator name ∧
      Place.ofPath path = Place.ofPath (objectsIn store.root) ++ [name] := by
  obtain ⟨name, told, rfl⟩ := directoryOf_eq_ok.1 named
  have names := Uuid.names_of_text? told
  exact ⟨name, names, Place.ofPath_join names.isName _⟩

/-- Nothing at or below the directory of a locator is at or below that of another one. -/
theorem directories_apart (apart : other ≠ locator) (named : store.directoryOf locator = .ok path)
    (named' : store.directoryOf other = .ok path') {place : Place}
    (below : Place.ofPath path' <+: place) : ¬Place.ofPath path <+: place := by
  obtain ⟨name, names, here⟩ := place_of_directory named
  obtain ⟨name', names', there⟩ := place_of_directory named'
  obtain ⟨rest, rfl⟩ := below
  rw [here, there, List.append_assoc, List.prefix_append_right_inj, List.singleton_append,
    List.cons_prefix_cons]
  rintro ⟨rfl, -⟩
  exact apart (names.unique names')

theorem deleteFrom_cases (store : LargeStore) (disk : Disk) (locator : Locator) :
    (store.deleteFrom disk locator).2 = disk ∨ ∃ path, store.directoryOf locator = .ok path ∧
      (store.deleteFrom disk locator).2 = disk.without (Place.ofPath path) := by
  unfold deleteFrom
  cases named : store.directoryOf locator with
  | error e => exact .inl rfl
  | ok path => exact (disk.removeTree_cases (Place.ofPath path)).imp_right fun gone => ⟨path, rfl, gone⟩

/-- What a deletion changes is at or below the directory of its locator. -/
theorem deleteFrom_aside {place : Place}
    (aside : ∀ path, store.directoryOf locator = .ok path → ¬Place.ofPath path <+: place) :
    (store.deleteFrom disk locator).2.node? place = disk.node? place := by
  rcases store.deleteFrom_cases disk locator with same | ⟨path, named, gone⟩
  · rw [same]
  · rw [gone, Disk.without_of_aside (aside path named)]

theorem readFrom_of_refused {e : BlobError} (refused : store.directoryOf locator = .error e) :
    store.readFrom disk locator = .error e := by
  simp only [readFrom, refused, bind, Except.bind]

theorem readFrom_of_directory (named : store.directoryOf locator = .ok path) :
    store.readFrom disk locator = (disk.openFile (Place.ofPath path ++ [contentFile])).mapError
      (faultAt locator (Path.join path contentFile)) := by
  simp only [readFrom, named, bind, Except.bind, Place.ofPath_join contentFile_isName]

/-- Opening the content file comes to what stands at its directory. -/
theorem openFile_content {place : Place}
    (proper : disk.node? (place ++ [contentFile]) ≠ some .directory) :
    disk.openFile (place ++ [contentFile]) = match disk.object? place with
      | some (.directory d) => d.content.elim (.error .missing) .ok
      | some .plainFile => .error .otherKind
      | none => .error .missing := by
  rw [Disk.openFile, Disk.isObstructed_concat, Disk.object?]
  cases disk.isObstructed place with
  | true => rfl
  | false =>
    cases there : disk.node? place with
    | none =>
      -- A file without its directory is what `rooted` rules out.
      have nothing : disk.node? (place ++ [contentFile]) = none := by
        by_contra present
        cases there.symm.trans (disk.rooted _ _ present)
      simp [Disk.file?, there, nothing]
    | some node =>
      cases node with
      | file content => simp [Disk.file?, there]
      | directory =>
        cases inside : disk.node? (place ++ [contentFile]) with
        | none => simp [Disk.file?, there, inside]
        | some node =>
          cases node with
          | file content => simp [Disk.file?, there, inside]
          | directory => exact absurd inside proper

/-- Reading by path finds what reading by locator finds. -/
theorem readFrom_eq (carries : disk.Carries store) (locator : Locator) :
    store.readFrom disk locator = store.read locator := by
  cases named : store.directoryOf locator with
  | error e =>
    rw [readFrom_of_refused named, read, named]
    rfl
  | ok path =>
    rw [readFrom_of_directory named, openFile_content (carries.contents locator path named),
      carries.objects locator path named, read, named]
    simp only [bind, Except.bind]
    cases store.object? locator with
    | none => rfl
    | some object =>
      cases object with
      | plainFile => rfl
      | directory d =>
        obtain ⟨content, -, -⟩ := d
        cases content <;> rfl

/-- What is left of the file system carries what is left of the store. -/
theorem carries_without (carries : disk.Carries store)
    (named : store.directoryOf locator = .ok path)
    (reached : disk.isObstructed (Place.ofPath path) = false) (unblocked : store.isBlocked = false) :
    (disk.without (Place.ofPath path)).Carries
      { store with objects := store.objects.erase locator } := by
  constructor
  · intro other path' named'
    by_cases here : other = locator
    · subst here
      cases named.symm.trans named'
      rw [Disk.object?_without reached]
      simp [object?, unblocked, LocatorMap.find?_erase]
    · have aside {place : Place} (below : Place.ofPath path' <+: place) :=
        directories_apart here named named' below
      rw [object?_erase here, ← carries.objects other path' named']
      refine Disk.object?_congr (fun above leads => ?_) fun name => ?_
      · exact Disk.without_of_aside fun back => aside (List.prefix_refl _) (back.trans leads)
      · exact Disk.without_of_aside (aside (List.prefix_append ..))
  · intro other path' named'
    by_cases here : other = locator
    · subst here
      cases named.symm.trans named'
      have gone : (disk.without (Place.ofPath path)).node? (Place.ofPath path ++ [contentFile]) = none :=
        if_pos (List.prefix_append ..)
      rw [gone]
      intro present
      cases present
    · rw [Disk.without_of_aside (directories_apart here named named' (List.prefix_append ..))]
      exact carries.contents other path' named'

theorem deleteFrom_eq (carries : disk.Carries store) (locator : Locator) :
    (store.deleteFrom disk locator).1 = (store.delete locator).1 ∧
      (store.deleteFrom disk locator).2.Carries (store.delete locator).2 := by
  unfold deleteFrom delete
  cases named : store.directoryOf locator with
  | error e => exact ⟨rfl, carries⟩
  | ok path =>
    have seen := carries.objects locator path named
    unfold Disk.object? at seen
    simp only [Disk.removeTree, ← seen]
    cases reached : disk.isObstructed (Place.ofPath path) with
    | true => exact ⟨rfl, carries⟩
    | false =>
      rw [reached] at seen
      cases there : disk.node? (Place.ofPath path) with
      | none => exact ⟨rfl, carries⟩
      | some node =>
        cases node with
        | file content => exact ⟨rfl, carries⟩
        | directory =>
          rw [there] at seen
          have unblocked := unblocked_of_directory seen.symm
          exact ⟨rfl, carries_without carries named reached unblocked⟩

structure Confines (store : LargeStore) (disk : Disk) (locator : Locator) : Prop where
  /-- What is read is the content file of the locator's own directory. -/
  read : ∀ content, store.readFrom disk locator = .ok content → ∃ path,
    store.directoryOf locator = .ok path ∧
      disk.node? (Place.ofPath path ++ [contentFile]) = some (.file content)
  /-- Nothing else has a part in the answer but what stands above that file. -/
  depends : ∀ disk' : Disk, (∀ path, store.directoryOf locator = .ok path →
    ∀ place, place <+: Place.ofPath path ++ [contentFile] →
      disk'.node? place = disk.node? place) →
    store.readFrom disk' locator = store.readFrom disk locator
  deleted : ∀ place, (store.deleteFrom disk locator).2.node? place ≠ disk.node? place → ∃ path,
    store.directoryOf locator = .ok path ∧ Place.ofPath path <+: place
  /-- All that is in the directories of other locators stays. -/
  others : ∀ other path place, other ≠ locator → store.directoryOf other = .ok path →
    Place.ofPath path <+: place →
      (store.deleteFrom disk locator).2.node? place = disk.node? place
  /-- All that is not in the directory of the objects stays, and so does that directory. -/
  outside : ∀ place, (∀ name, ¬Place.ofPath (objectsIn store.root) ++ [name] <+: place) →
    (store.deleteFrom disk locator).2.node? place = disk.node? place

theorem readFrom_eq_ok {content : Bytes} (done : store.readFrom disk locator = .ok content) :
    ∃ path, store.directoryOf locator = .ok path ∧
      disk.node? (Place.ofPath path ++ [contentFile]) = some (.file content) := by
  cases named : store.directoryOf locator with
  | error e => cases (readFrom_of_refused named).symm.trans done
  | ok path =>
    refine ⟨path, rfl, ?_⟩
    rw [readFrom_of_directory named, Disk.openFile] at done
    split at done
    · cases done
    · split at done
      · next there => rw [there, Except.ok.inj done]
      · cases done
      · cases done

/-- What is read depends on what is at the content file and above it. -/
theorem readFrom_congr {disk' : Disk} (same : ∀ path, store.directoryOf locator = .ok path →
    ∀ place, place <+: Place.ofPath path ++ [contentFile] → disk'.node? place = disk.node? place) :
    store.readFrom disk' locator = store.readFrom disk locator := by
  cases named : store.directoryOf locator with
  | error e => rw [readFrom_of_refused named, readFrom_of_refused named]
  | ok path =>
    have same := same path named
    have obstructed := Disk.isObstructed_congr fun above leads _ => same above leads
    rw [readFrom_of_directory named, readFrom_of_directory named, Disk.openFile, Disk.openFile,
      obstructed, same _ (List.prefix_refl _)]

theorem confines (store : LargeStore) (disk : Disk) (locator : Locator) :
    store.Confines disk locator where
  read content := readFrom_eq_ok
  depends disk' := readFrom_congr
  deleted place changed := by
    by_contra aside
    exact changed (deleteFrom_aside fun path named below => aside ⟨path, named, below⟩)
  others other path place apart named below :=
    deleteFrom_aside fun _ named' => directories_apart apart named' named below
  outside place out := by
    refine deleteFrom_aside fun path named below => ?_
    obtain ⟨name, -, here⟩ := place_of_directory named
    exact out name (here ▸ below)

/-- Locators that are no identifiers are refused, and the others lead to directories of their own,
right below the one that holds all objects. On a file system that is all that reads and deletions
have to do with, and they come to the same there as in the store. -/
theorem directories_apart_and_confined (store : LargeStore) :
    (∀ locator, locator.length ≠ 16 →
      store.directoryOf locator = .error (.corruptHandle (.notUuid locator))) ∧
    (∀ locator, locator.length = 16 → ∃ path name, store.directoryOf locator = .ok path ∧
      path = Path.join (objectsIn store.root) name ∧
      Place.ofPath path = Place.ofPath (objectsIn store.root) ++ [name] ∧
      name.length = 36 ∧ ∀ c ∈ name.toList, c ∈ lowerDigits ∨ c = '-') ∧
    (∀ a b path path', a ≠ b → store.directoryOf a = .ok path → store.directoryOf b = .ok path' →
      path ≠ path' ∧ ¬Place.ofPath path <+: Place.ofPath path') ∧
    (∀ disk locator, store.Confines disk locator) ∧
    ∀ (disk : Disk) (locator : Locator), disk.Carries store →
      store.readFrom disk locator = store.read locator ∧
      (store.deleteFrom disk locator).1 = (store.delete locator).1 ∧
      (store.deleteFrom disk locator).2.Carries (store.delete locator).2 := by
  refine ⟨fun locator short => ?_, fun locator whole => ?_, fun a b path path' apart named named' => ?_,
    store.confines, fun disk locator carries => ⟨readFrom_eq carries locator, deleteFrom_eq carries locator⟩⟩
  · rcases store.directoryOf_cases locator with ⟨-, whole, -⟩ | ⟨-, refused⟩
    · exact absurd whole short
    · exact refused
  · obtain ⟨name, told⟩ := Option.isSome_iff_exists.1 (Uuid.text?_isSome.2 whole)
    have names := Uuid.names_of_text? told
    exact ⟨_, name, directoryOf_eq_ok.2 ⟨name, told, rfl⟩, rfl, Place.ofPath_join names.isName _,
      names.length, names.digits⟩
  · have aside := directories_apart apart.symm named named' (List.prefix_refl _)
    exact ⟨fun same => aside (same ▸ List.prefix_refl _), aside⟩

end LargeStore

def Disk.ofNodes (nodes : List (Place × Node))
    (grounded : ∀ e ∈ nodes, e.1 ≠ [] → nodes.lookup e.1.dropLast = some .directory) : Disk where
  node? place := nodes.lookup place
  rooted := by
    intro place name present
    obtain ⟨node, found⟩ := Option.ne_none_iff_exists'.1 present
    obtain ⟨before, after, rfl, -⟩ := List.lookup_eq_some_iff.1 found
    have member : (place ++ [name], node) ∈ before ++ (place ++ [name], node) :: after := by simp
    simpa using grounded _ member (by simp)

namespace Sample

def name : String := "6d6d6d6d-6d6d-6d6d-6d6d-6d6d6d6d6d00"

def disk : Disk := .ofNodes
  [([], .directory), (["secret"], .file [1]), (["large"], .directory),
    (["large", "blobs"], .directory), (["large", "blobs", name], .directory),
    (["large", "blobs", name, "data.bin"], .file [9])]
  (by decide)

def bulk : LargeStore :=
  ⟨"large", false, (∅ : LocatorMap LargeObject).insert identifier (.directory ⟨some [9], false, none⟩)⟩

/-- The bytes of a handle that was made up. -/
def climbing : Locator := utf8 "../../../secret/"

theorem bulk_place : Place.ofPath (LargeStore.objectsIn bulk.root) = ["large", "blobs"] := by
  decide

theorem disk_carries : disk.Carries bulk := by
  have kinds {locator : Locator} {path : String} (named : bulk.directoryOf locator = .ok path) :
      ∃ text, Place.ofPath path = ["large", "blobs", text] ∧
        (locator = identifier ∧ text = name ∨ locator ≠ identifier ∧ text ≠ name) := by
    obtain ⟨text, told, rfl⟩ := LargeStore.directoryOf_eq_ok.1 named
    have names := Uuid.names_of_text? told
    have told' : Uuid.text? identifier = some name := by decide
    refine ⟨text, by rw [Place.ofPath_join names.isName, bulk_place]; rfl, ?_⟩
    by_cases here : locator = identifier
    · subst here
      exact .inl ⟨rfl, Option.some.inj (told.symm.trans told')⟩
    · refine .inr ⟨here, fun same => here ?_⟩
      subst same
      exact (Uuid.names_of_text? told').unique names
  constructor
  · intro locator path named
    obtain ⟨text, place, ⟨rfl, rfl⟩ | ⟨other, apart⟩⟩ := kinds named
    · rw [place]
      decide
    · have unlike : (text == name) = false := beq_eq_false_iff_ne.2 apart
      have absent : bulk.object? locator = none := by
        rw [LargeStore.object?, bulk, LocatorMap.find?_insert, if_neg other]
        rfl
      rw [place, absent]
      simp [Disk.object?, Disk.isObstructed, Disk.file?, disk, Disk.ofNodes, List.lookup_cons, unlike]
  · intro locator path named
    obtain ⟨text, place, ⟨rfl, rfl⟩ | ⟨other, apart⟩⟩ := kinds named
    · rw [place]
      decide
    · have unlike : (text == name) = false := beq_eq_false_iff_ne.2 apart
      rw [place]
      simp [disk, Disk.ofNodes, List.lookup_cons, unlike]

end Sample

open Sample in
/-- A locator that reads like a path leads to a directory like any other, where nothing is. -/
theorem climbing_locator_confined :
    climbing.length = 16 ∧ disk.Carries bulk ∧
      (bulk.deleteFrom disk climbing).1 = .error (.notFound .large climbing) ∧
      bulk.readFrom (bulk.deleteFrom disk climbing).2 identifier = .ok [9] ∧
      (bulk.deleteFrom disk climbing).2.node? ["secret"] = some (.file [1]) := by
  have whole : climbing.length = 16 := by decide
  obtain ⟨-, leads, -, confines, same⟩ := bulk.directories_apart_and_confined
  obtain ⟨path, text, named, -⟩ := leads climbing whole
  obtain ⟨-, deleted, left⟩ := same disk climbing disk_carries
  have absent : bulk.object? climbing = none := by decide
  have missing : bulk.delete climbing = (.error (.notFound .large climbing), bulk) := by
    simp only [LargeStore.delete, named, absent]
  rw [missing] at deleted left
  refine ⟨whole, disk_carries, deleted, ?_, ?_⟩
  · exact (same _ identifier left).1
  · refine (confines disk climbing).outside ["secret"] fun name below => ?_
    rw [bulk_place] at below
    exact absurd below.length_le (by simp)

end BlobLifecycle
