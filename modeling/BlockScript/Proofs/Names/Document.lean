import BlockScript.CommandLine.FileTree
import BlockScript.CommandLine.Run
import BlockScript.Proofs.Names.Table
import Mathlib

/-!
# Tables of known names from documents

`Json.Lists` says which entries a document lists: those of its three sections in the order of the document, each with
the kind of its section, and the properties of a sprite in front of the sprites.  A document makes a table exactly if
it lists the entries of the table (`NameTable.ofJson_eq_ok_iff`), and all others are refused for a fault of the table.

An object must have a name that is not empty.  A text is taken as it is, and so the empty text stands for an entry
with an empty name (`NameTable.load_blank`); there is no other way to get one (`NameTable.entries_of_load`).
-/

namespace BlockScript

namespace Json

/-- A JSON value stands for a known name of a kind: a text for the name that it is, and an object for the name in it,
under the name or the id that it gives. -/
inductive StandsFor (kind : NameKind) : Json → KnownName → Prop where
  | text (name : String) : StandsFor kind (.text name) ⟨name, name, kind⟩
  | named {members : List (String × Json)} {name : String} (hname : members.lookup "name" = some (.text name))
      (hne : name ≠ "") (hid : members.lookup "id" = none) : StandsFor kind (.object members) ⟨name, name, kind⟩
  | identified {members : List (String × Json)} {name id : String}
      (hname : members.lookup "name" = some (.text name)) (hne : name ≠ "")
      (hid : members.lookup "id" = some (.text id)) : StandsFor kind (.object members) ⟨name, id, kind⟩

/-- A value in one of the forms of an entry, a text or an object, has no name or an empty one. -/
inductive IsNameless : Json → Prop where
  | text : IsNameless (.text "")
  | object {members : List (String × Json)} (h : ∀ name, members.lookup "name" = some (.text name) → name = "") :
      IsNameless (.object members)

/-- The entries of a section of a document, if it is a list; a section that is left out has none. -/
def section? (document : Json) (name : String) : Option (List Json) :=
  match document.member? name with
  | none => some []
  | some (.list items) => some items
  | some _ => none

/-- The entries of all sections of a document. -/
def items (document : Json) : List Json :=
  NameTable.sections.flatMap fun name => (document.section? name).getD []

/-- The document is an object with no other members than the three sections, and lists these entries. -/
structure Lists (document : Json) (withBuiltins : Bool) (entries : List KnownName) : Prop where
  sections : ∃ members, document = .object members ∧ ∀ member ∈ members, member.1 ∈ NameTable.sections
  entries : ∃ globals locals sprites g l s, document.section? "globals" = some globals ∧
    document.section? "locals" = some locals ∧ document.section? "sprites" = some sprites ∧
    List.Forall₂ (StandsFor .globalVariable) globals g ∧ List.Forall₂ (StandsFor .localVariable) locals l ∧
    List.Forall₂ (StandsFor .sprite) sprites s ∧
    entries = g ++ l ++ (if withBuiltins then NameTable.builtins else []) ++ s

end Json

namespace NameTable

variable {kind : NameKind} {value : Json} {entry : KnownName} {path : String} {withBuiltins : Bool} {document : Json}

/-! ### Entries -/

private theorem toKnownName_object_eq_ok_iff {members : List (String × Json)} :
    NameEntry.toKnownName kind (.written (.object members)) = .ok entry ↔
      Json.StandsFor kind (.object members) entry := by
  rw [NameEntry.toKnownName]
  constructor
  · intro h
    split at h
    · rename_i name hname
      split at h
      · cases h
      · rename_i hne
        have hne : name ≠ "" := by simpa using hne
        split at h
        · rename_i hid
          cases h
          exact .named hname hne hid
        · rename_i id hid
          cases h
          exact .identified hname hne hid
        · cases h
    · cases h
  · rintro (_ | ⟨hname, hne, hid⟩ | ⟨hname, hne, hid⟩)
    · simp [hname, hne, hid]
    · simp [hname, hne, hid]

theorem toKnownName_eq_ok_iff :
    NameEntry.toKnownName kind (.written value) = .ok entry ↔ value.StandsFor kind entry := by
  cases value with
  | object members => exact toKnownName_object_eq_ok_iff
  | text name =>
    constructor
    · intro h
      cases h
      exact .text name
    · rintro ⟨⟩
      rfl
  | _ =>
    constructor
    · intro h
      cases h
    · rintro ⟨⟩

theorem mapM_toKnownName_eq_ok_iff {items : List Json} {entries : List KnownName} :
    (items.map NameEntry.written).mapM (NameEntry.toKnownName kind) = .ok entries ↔
      List.Forall₂ (Json.StandsFor kind) items entries := by
  induction items generalizing entries with
  | nil =>
    rw [List.map_nil, List.mapM_nil, List.forall₂_nil_left_iff]
    exact ⟨fun h => (Except.ok.inj h).symm, fun h => h ▸ rfl⟩
  | cons item items ih =>
    rw [List.map_cons, List.mapM_cons, bind_eq_ok_iff, List.forall₂_cons_left_iff]
    constructor
    · rintro ⟨entry, hentry, h⟩
      obtain ⟨entries, hentries, h⟩ := bind_eq_ok_iff.1 h
      exact ⟨entry, entries, toKnownName_eq_ok_iff.1 hentry, ih.1 hentries, (Except.ok.inj h).symm⟩
    · rintro ⟨entry, entries, hentry, hentries, rfl⟩
      exact ⟨entry, toKnownName_eq_ok_iff.2 hentry, bind_eq_ok_iff.2 ⟨entries, ih.2 hentries, rfl⟩⟩

/-! ### Documents -/

theorem sectionOf_eq_ok_iff {members : List (String × Json)} {name : String} {entries : List NameEntry} :
    sectionOf path members name = .ok entries ↔
      ∃ items, (Json.object members).section? name = some items ∧ entries = items.map .written := by
  unfold sectionOf Json.section? Json.member?
  split
  · rename_i hname
    simp [hname, eq_comm]
  · rename_i items hname
    simp [hname, eq_comm]
  · rename_i value hlist hname
    simp [hname]

theorem build_written_eq_ok_iff {globals locals sprites : List Json} {table : NameTable} :
    build (globals.map .written) (locals.map .written) (sprites.map .written) withBuiltins = .ok table ↔
      ∃ g l s, List.Forall₂ (Json.StandsFor .globalVariable) globals g ∧
        List.Forall₂ (Json.StandsFor .localVariable) locals l ∧ List.Forall₂ (Json.StandsFor .sprite) sprites s ∧
        table.entries = g ++ l ++ (if withBuiltins then builtins else []) ++ s := by
  simp only [build_eq_ok_iff, mapM_toKnownName_eq_ok_iff]

private theorem ofJson_object (members : List (String × Json)) :
    ofJson path withBuiltins (.object members) =
      if (members.map Prod.fst).filter (!sections.contains ·) = [] then do
        let globals ← sectionOf path members "globals"
        let locals ← sectionOf path members "locals"
        let sprites ← sectionOf path members "sprites"
        build globals locals sprites withBuiltins
      else
        .error (.unknownSections path (((members.map Prod.fst).filter (!sections.contains ·)).foldr insertSorted [])) :=
  ite_not ..

private theorem unknown_eq_nil_iff {members : List (String × Json)} :
    (members.map Prod.fst).filter (!sections.contains ·) = [] ↔ ∀ member ∈ members, member.1 ∈ sections := by
  rw [List.filter_eq_nil_iff, List.forall_mem_map]
  simp

/-- A document makes a table exactly if it lists the entries of the table. -/
theorem ofJson_eq_ok_iff {table : NameTable} :
    ofJson path withBuiltins document = .ok table ↔ document.Lists withBuiltins table.entries := by
  cases document with
  | object members =>
    rw [ofJson_object]
    constructor
    · intro h
      split at h
      · rename_i hsections
        obtain ⟨_, hread, h⟩ := bind_eq_ok_iff.1 h
        obtain ⟨globals, hglobals, rfl⟩ := sectionOf_eq_ok_iff.1 hread
        obtain ⟨_, hread, h⟩ := bind_eq_ok_iff.1 h
        obtain ⟨locals, hlocals, rfl⟩ := sectionOf_eq_ok_iff.1 hread
        obtain ⟨_, hread, h⟩ := bind_eq_ok_iff.1 h
        obtain ⟨sprites, hsprites, rfl⟩ := sectionOf_eq_ok_iff.1 hread
        obtain ⟨g, l, s, hentries⟩ := build_written_eq_ok_iff.1 h
        exact ⟨⟨members, rfl, unknown_eq_nil_iff.1 hsections⟩, globals, locals, sprites, g, l, s, hglobals, hlocals,
          hsprites, hentries⟩
      · cases h
    · rintro ⟨⟨members, hmembers, hsections⟩, globals, locals, sprites, g, l, s, hglobals, hlocals, hsprites, hentries⟩
      cases hmembers
      rw [if_pos (unknown_eq_nil_iff.2 hsections)]
      refine bind_eq_ok_iff.2 ⟨_, sectionOf_eq_ok_iff.2 ⟨globals, hglobals, rfl⟩, ?_⟩
      refine bind_eq_ok_iff.2 ⟨_, sectionOf_eq_ok_iff.2 ⟨locals, hlocals, rfl⟩, ?_⟩
      refine bind_eq_ok_iff.2 ⟨_, sectionOf_eq_ok_iff.2 ⟨sprites, hsprites, rfl⟩, ?_⟩
      exact build_written_eq_ok_iff.2 ⟨g, l, s, hentries⟩
  | _ =>
    constructor
    · intro h
      cases h
    · rintro ⟨⟨members, hmembers, -⟩, -⟩
      cases hmembers

/-! ### Faults -/

/-- Only faults of a table of known names come up. -/
def OnlyTableFaults {α : Type} (x : Except NameFault α) : Prop :=
  ∀ fault, x = .error fault → fault.kind = .knownName

theorem OnlyTableFaults.bind {α β : Type} {x : Except NameFault α} {f : α → Except NameFault β}
    (hx : OnlyTableFaults x) (hf : ∀ a, OnlyTableFaults (f a)) : OnlyTableFaults (x >>= f) := by
  cases x with
  | error fault =>
    rintro _ ⟨⟩
    exact hx fault rfl
  | ok a => exact hf a

theorem onlyTableFaults_ok {α : Type} (a : α) : OnlyTableFaults (.ok a) := by
  rintro fault ⟨⟩

theorem onlyTableFaults_error {α : Type} {fault : NameFault} (h : fault.kind = .knownName) :
    OnlyTableFaults (.error fault : Except NameFault α) := by
  rintro _ ⟨⟩
  exact h

theorem onlyTableFaults_toKnownName (item : NameEntry) : OnlyTableFaults (item.toKnownName kind) := by
  unfold NameEntry.toKnownName
  split
  · exact onlyTableFaults_ok _
  · exact onlyTableFaults_ok _
  · split
    · split
      · exact onlyTableFaults_error rfl
      · split
        · exact onlyTableFaults_ok _
        · exact onlyTableFaults_ok _
        · exact onlyTableFaults_error rfl
    · exact onlyTableFaults_error rfl
  · exact onlyTableFaults_error rfl

theorem onlyTableFaults_mapM (items : List NameEntry) :
    OnlyTableFaults (items.mapM (NameEntry.toKnownName kind)) := by
  induction items with
  | nil => exact onlyTableFaults_ok _
  | cons item items ih =>
    rw [List.mapM_cons]
    exact (onlyTableFaults_toKnownName item).bind fun _ => ih.bind fun _ => onlyTableFaults_ok _

theorem onlyTableFaults_sectionOf (members : List (String × Json)) (name : String) :
    OnlyTableFaults (sectionOf path members name) := by
  unfold sectionOf
  split
  · exact onlyTableFaults_ok _
  · exact onlyTableFaults_ok _
  · exact onlyTableFaults_error rfl

/-- A document that makes no table is refused for a fault of the table. -/
theorem onlyTableFaults_ofJson : OnlyTableFaults (ofJson path withBuiltins document) := by
  cases document with
  | object members =>
    rw [ofJson_object]
    split
    · refine (onlyTableFaults_sectionOf members _).bind fun globals => ?_
      refine (onlyTableFaults_sectionOf members _).bind fun locals => ?_
      refine (onlyTableFaults_sectionOf members _).bind fun sprites => ?_
      refine (onlyTableFaults_mapM globals).bind fun _ => ?_
      refine (onlyTableFaults_mapM locals).bind fun _ => ?_
      exact (onlyTableFaults_mapM sprites).bind fun _ => onlyTableFaults_ok _
    · exact onlyTableFaults_error rfl
  | _ => exact onlyTableFaults_error rfl

/-! ### Names -/

theorem name_eq_empty_iff (h : value.StandsFor kind entry) : entry.name = "" ↔ value = .text "" := by
  cases h with
  | text name => simp
  | named _ hne _ => simp [hne]
  | identified _ hne _ => simp [hne]

theorem names_ne_empty_iff {items : List Json} {entries : List KnownName}
    (h : List.Forall₂ (Json.StandsFor kind) items entries) :
    (∀ entry ∈ entries, entry.name ≠ "") ↔ .text "" ∉ items := by
  induction h with
  | nil => simp
  | cons hentry _ ih => rw [List.forall_mem_cons, ih, List.mem_cons, not_or, ne_eq, name_eq_empty_iff hentry, eq_comm]

theorem exists_standsFor_of_mem {items : List Json} {entries : List KnownName}
    (h : List.Forall₂ (Json.StandsFor kind) items entries) (hvalue : value ∈ items) :
    ∃ entry, value.StandsFor kind entry := by
  induction h with
  | nil => cases hvalue
  | cons hentry _ ih =>
    rcases List.mem_cons.1 hvalue with rfl | hvalue
    · exact ⟨_, hentry⟩
    · exact ih hvalue

/-- Of the values without a name only the empty text stands for an entry. -/
theorem eq_text_of_isNameless (h : value.IsNameless) (hentry : value.StandsFor kind entry) : value = .text "" := by
  cases h with
  | text => rfl
  | object hnameless =>
    cases hentry with
    | named hname hne _ => exact absurd (hnameless _ hname) hne
    | identified hname hne _ => exact absurd (hnameless _ hname) hne

end NameTable

namespace Json.Lists

variable {document : Json} {withBuiltins : Bool} {entries : List KnownName}

private theorem items_eq {globals locals sprites : List Json} (hglobals : document.section? "globals" = some globals)
    (hlocals : document.section? "locals" = some locals) (hsprites : document.section? "sprites" = some sprites) :
    document.items = globals ++ (locals ++ sprites) := by
  simp only [items, NameTable.sections, List.flatMap_cons, List.flatMap_nil, hglobals, hlocals, hsprites,
    Option.getD_some, List.append_nil]

/-- No name is empty exactly if no entry of a section is the empty text. -/
theorem names_ne_empty_iff (h : document.Lists withBuiltins entries) :
    (∀ entry ∈ entries, entry.name ≠ "") ↔ .text "" ∉ document.items := by
  obtain ⟨-, globals, locals, sprites, g, l, s, hglobals, hlocals, hsprites, hg, hl, hs, rfl⟩ := h
  have hbuiltins : ∀ entry ∈ (if withBuiltins then NameTable.builtins else []), entry.name ≠ "" := by
    cases withBuiltins <;> decide
  rw [List.forall_mem_append, List.forall_mem_append, List.forall_mem_append, NameTable.names_ne_empty_iff hg,
    NameTable.names_ne_empty_iff hl, NameTable.names_ne_empty_iff hs, items_eq hglobals hlocals hsprites,
    List.mem_append, List.mem_append, not_or, not_or, and_iff_left hbuiltins, and_assoc]

/-- Each entry of a section stands for a known name. -/
theorem exists_standsFor {value : Json} (h : document.Lists withBuiltins entries) (hvalue : value ∈ document.items) :
    ∃ kind entry, value.StandsFor kind entry := by
  obtain ⟨-, globals, locals, sprites, g, l, s, hglobals, hlocals, hsprites, hg, hl, hs, -⟩ := h
  rw [items_eq hglobals hlocals hsprites, List.mem_append, List.mem_append] at hvalue
  rcases hvalue with hvalue | hvalue | hvalue
  · exact ⟨_, NameTable.exists_standsFor_of_mem hg hvalue⟩
  · exact ⟨_, NameTable.exists_standsFor_of_mem hl hvalue⟩
  · exact ⟨_, NameTable.exists_standsFor_of_mem hs hvalue⟩

end Json.Lists

/-- The file at a path holds a document. -/
structure FileTree.HoldsJson (tree : FileTree) (path : Path) (document : Json) : Prop where
  isFile : tree.kind? path = .ok (some .file)
  reads : ∃ text, decodeText? (tree.read path) = some text ∧ Json.read text.toList = .ok document

namespace NameTable

variable {tree : FileTree} {path : Path} {document : Json}

/-- What the file of a table comes to, and what is logged of it. -/
theorem load_of_holdsJson (h : tree.HoldsJson path document) (withBuiltins : Bool) :
    (load FileTree.files path withBuiltins).run tree =
      (match ofJson path.toString withBuiltins document with
        | .error fault => ⟨.error fault.diagnose, #[]⟩
        | .ok table => ⟨.ok table, #[.namesLoaded table.size path.toString]⟩, tree) := by
  obtain ⟨hfile, text, hdecode, hread⟩ := h
  have hisFile : (FileTree.files.isFile path).run tree = pure (.ok true, tree) := by
    show ((tree.kind? path).map fun kind => decide (kind = some FileKind.file), tree) = _
    rw [hfile]
    rfl
  have hbytes : (FileTree.files.read path).run tree = pure (tree.read path, tree) := rfl
  have hdocument : ofText path.toString withBuiltins text.toList = ofJson path.toString withBuiltins document := by
    rw [ofText, hread]
    rfl
  unfold load
  simp only [StateT.run_bind, hisFile, pure_bind, hbytes, hdecode, hdocument]
  cases ofJson path.toString withBuiltins document <;> rfl

/-- The table that is loaded has the entries that the document lists, and its first entry of a name is the one that is
found.  All its names are other than empty exactly if no entry of a section is the empty text.  Any other entry
without a name is refused. -/
theorem entries_of_load (h : tree.HoldsJson path document) (withBuiltins : Bool) :
    ∃ loaded, (load FileTree.files path withBuiltins).run tree = (loaded, tree) ∧
      (∀ table, loaded.result = .ok table ↔ document.Lists withBuiltins table.entries) ∧
      (∀ table, loaded.result = .ok table →
        (∀ name entry, table.lookup name = some entry ↔ ∃ before after, table.entries = before ++ entry :: after ∧
          entry.name = name ∧ ∀ other ∈ before, other.name ≠ name) ∧
        (∀ name, table.lookup name = none ↔ ∀ entry ∈ table.entries, entry.name ≠ name) ∧
        ((∀ entry ∈ table.entries, entry.name ≠ "") ↔ .text "" ∉ document.items)) ∧
      ∀ item ∈ document.items, item.IsNameless → item ≠ .text "" →
        ∃ d, loaded.result = .error d ∧ d.kind = .knownName := by
  refine ⟨_, load_of_holdsJson h withBuiltins, ?_⟩
  have hlists (table : NameTable) := @ofJson_eq_ok_iff path.toString withBuiltins document table
  have hfaults := @onlyTableFaults_ofJson path.toString withBuiltins document
  cases hresult : ofJson path.toString withBuiltins document with
  | error fault =>
    rw [hresult] at hlists hfaults
    refine ⟨fun table => ?_, fun table htable => ?_, fun _ _ _ _ => ⟨_, rfl, hfaults fault rfl⟩⟩
    · rw [← hlists]
      simp
    · cases htable
  | ok table =>
    rw [hresult] at hlists
    have hlisted := (hlists table).1 rfl
    refine ⟨fun table' => ?_, fun table' htable => ?_, fun item hitem hnameless hne => ?_⟩
    · rw [← hlists]
      simp
    · cases htable
      exact ⟨fun _ _ => lookup_eq_some_iff, fun _ => lookup_eq_none_iff, hlisted.names_ne_empty_iff⟩
    · obtain ⟨kind, entry, hentry⟩ := hlisted.exists_standsFor hitem
      exact absurd (eq_text_of_isNameless hnameless hentry) hne

/-- A directory with the file `names.json` and nothing else. -/
def oneFile (text : String) : FileTree :=
  [(["names.json"], some text.toUTF8)]

/-- The path of that file. -/
def onePath : Path :=
  ⟨"", ["names.json"]⟩

private theorem unifyLineEnds_eq_self {t : List Char} (h : '\r' ∉ t) : decodeText?.unifyLineEnds t = t := by
  induction t with
  | nil => rfl
  | cons c t ih =>
    rw [List.mem_cons, not_or] at h
    rw [decodeText?.unifyLineEnds, ih h.2]
    · exact fun rest hc _ => h.1 hc.symm
    · exact fun hc => h.1 hc.symm

private theorem decodeText?_toUTF8 {text : String} (h : '\r' ∉ text.toList) : decodeText? text.toUTF8 = some text := by
  have hdecode : String.fromUTF8? text.toUTF8 = some text := dif_pos text.isValidUTF8
  rw [decodeText?, hdecode, Option.map_some, unifyLineEnds_eq_self h, String.ofList_toList]

private theorem resolve_oneFile (text : String) : (oneFile text).resolve onePath = .ok ["names.json"] := by
  have hpath : ¬FileTree.maxPathSize < onePath.toString.utf8ByteSize := by decide +kernel
  have hname : ¬FileTree.maxNameSize < "names.json".utf8ByteSize := by decide +kernel
  unfold FileTree.resolve
  rw [if_neg (by decide), if_neg hpath]
  show (if FileTree.maxNameSize < "names.json".utf8ByteSize then Except.error FileProblem.nameTooLong
    else .ok ["names.json"]) = _
  exact if_neg hname

theorem holdsJson_oneFile {text : String} (h : '\r' ∉ text.toList) (hread : Json.read text.toList = .ok document) :
    (oneFile text).HoldsJson onePath document := by
  have hkind : (oneFile text).kind? onePath = .ok (some .file) := by
    rw [FileTree.kind?, resolve_oneFile]
    rfl
  have hbytes : (oneFile text).read onePath = text.toUTF8 := by
    rw [FileTree.read, resolve_oneFile]
    rfl
  exact ⟨hkind, text, hbytes ▸ decodeText?_toUTF8 h, hread⟩

/-- The file `{"globals": [""]}`. -/
def blank : FileTree :=
  oneFile "\x7b\"globals\": [\"\"]\x7d"

/-- A global variable whose name is the empty text is taken into the table, and found under that name. -/
theorem load_blank : ∃ document table events, blank.HoldsJson onePath document ∧
    (.text "" ∈ document.items ∧ (Json.text "").IsNameless) ∧
    (load FileTree.files onePath true).run blank = (⟨.ok table, events⟩, blank) ∧
    table.lookup "" = some ⟨"", "", .globalVariable⟩ := by
  have h : blank.HoldsJson onePath (.object [("globals", .list [.text ""])]) :=
    holdsJson_oneFile (by decide +kernel) (by cbv)
  exact ⟨_, ⟨⟨"", "", .globalVariable⟩ :: builtins⟩, _, h, ⟨List.mem_cons_self, .text⟩, load_of_holdsJson h true, rfl⟩

/-- The file `{"globals": ["score", {"name": "lives", "id": "v-1"}], "sprites": [{"name": "score"}]}`. -/
def score : FileTree :=
  oneFile ("\x7b\"globals\": [\"score\", \x7b\"name\": \"lives\", \"id\": \"v-1\"\x7d], " ++
    "\"sprites\": [\x7b\"name\": \"score\"\x7d]\x7d")

/-- The file `{"locals": [{"id": "v-2"}]}`. -/
def nameless : FileTree :=
  oneFile "\x7b\"locals\": [\x7b\"id\": \"v-2\"\x7d]\x7d"

/-- Two variables and a sprite, which has the name of the first variable, and a variable without a name. -/
theorem entries_of_load_score : ∃ document document' loaded loaded' table d,
    (score.HoldsJson onePath document ∧ (load FileTree.files onePath false).run score = (loaded, score) ∧
      loaded.result = .ok table ∧
      table.entries = [⟨"score", "score", .globalVariable⟩, ⟨"lives", "v-1", .globalVariable⟩,
        ⟨"score", "score", .sprite⟩] ∧
      table.lookup "score" = some ⟨"score", "score", .globalVariable⟩ ∧ ∀ entry ∈ table.entries, entry.name ≠ "") ∧
    (nameless.HoldsJson onePath document' ∧ (∃ item ∈ document'.items, item.IsNameless ∧ item ≠ .text "") ∧
      (load FileTree.files onePath false).run nameless = (loaded', nameless) ∧ loaded'.result = .error d ∧
      d.kind = .knownName) := by
  have h : score.HoldsJson onePath (.object
      [("globals", .list [.text "score", .object [("name", .text "lives"), ("id", .text "v-1")]]),
        ("sprites", .list [.object [("name", .text "score")]])]) :=
    holdsJson_oneFile (by decide +kernel) (by cbv)
  have h' : nameless.HoldsJson onePath (.object [("locals", .list [.object [("id", .text "v-2")]])]) :=
    holdsJson_oneFile (by decide +kernel) (by cbv)
  obtain ⟨loaded, hrun, hlists, htable, -⟩ := entries_of_load h false
  obtain ⟨loaded', hrun', -, -, hnameless⟩ := entries_of_load h' false
  have hitem : (Json.object [("id", .text "v-2")]).IsNameless := .object fun name hname => by cases hname
  have hne : Json.object [("id", .text "v-2")] ≠ .text "" := by
    intro heq
    cases heq
  obtain ⟨d, hd, hkind⟩ := hnameless _ List.mem_cons_self hitem hne
  have hresult : loaded.result = .ok ⟨[⟨"score", "score", .globalVariable⟩, ⟨"lives", "v-1", .globalVariable⟩,
      ⟨"score", "score", .sprite⟩]⟩ := by
    refine (hlists _).2 ⟨⟨_, rfl, by decide⟩, _, _, _, [⟨"score", "score", .globalVariable⟩,
      ⟨"lives", "v-1", .globalVariable⟩], [], [⟨"score", "score", .sprite⟩], rfl, rfl, rfl, ?_, .nil, ?_, rfl⟩
    · exact .cons (.text _) (.cons (.identified rfl (by decide) rfl) .nil)
    · exact .cons (.named rfl (by decide) rfl) .nil
  obtain ⟨-, -, hnames⟩ := htable _ hresult
  exact ⟨_, _, loaded, loaded', _, d, ⟨h, hrun, hresult, rfl, rfl, by decide⟩,
    ⟨h', ⟨_, List.mem_cons_self, hitem, hne⟩, hrun', hd, hkind⟩⟩

end NameTable

end BlockScript
