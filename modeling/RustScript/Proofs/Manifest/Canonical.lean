import RustScript.Proofs.Manifest.Sound

/-!
# The text of a manifest

A manifest that arises from a text or from a merge is written to a text that depends on what it
means only, not on the order in which its dependencies and further parts were given. If the writer
and the reader of documents fit together, the text is read as a manifest that means the same, so
that manifests with one text mean the same (`write_canonical`).
-/

set_option autoImplicit false

namespace RustScript.Manifest

open RustScript.Toml RustScript.Registry RustScript.Source

/-! ## The document of a manifest -/

theorem sortedEntries_perm (table : Table) : (sortedEntries table).Perm table :=
  Entries.sorted_perm table

theorem nodup_sortedEntries {table : Table} (h : table.keys.Nodup) :
    (Entries.keys (sortedEntries table)).Nodup :=
  ((sortedEntries_perm table).map Prod.fst).nodup_iff.mpr h

theorem alike_sortedEntries {table : Table} (h : table.keys.Nodup) :
    (Value.table table).Alike (.table (sortedEntries table)) := by
  rw [alike_table_iff h, sortedValues_eq, sortedValues_eq]
  exact (sortedEntries_perm table).symm.map _

/-- The parts of the document have different names. -/
theorem Sound.nodup_parts {manifest : Manifest} (h : manifest.Sound) :
    (Entries.keys (manifest.head ++ sortedEntries manifest.extra ++ manifest.tail)).Nodup := by
  have hown : ∀ name ∈ Entries.keys (sortedEntries manifest.extra), name ∉ ownParts := by
    intro name hname
    obtain ⟨entry, hentry, rfl⟩ := List.mem_map.mp hname
    exact h.apart entry ((sortedEntries_perm _).mem_iff.mp hentry)
  have hextra := nodup_sortedEntries h.distinct.extra.nodup
  have hkeys : Entries.keys (manifest.head ++ sortedEntries manifest.extra ++ manifest.tail) =
      ["package", "dependencies"] ++ Entries.keys (sortedEntries manifest.extra) ++
        ["workspace", "bin"] := by
    unfold Entries.keys
    rw [List.map_append, List.map_append]
    rfl
  rw [hkeys]
  refine List.nodup_append.mpr ⟨List.nodup_append.mpr ⟨by decide, hextra, ?_⟩, by decide, ?_⟩
  · intro name hname other hother heq
    have hfixed : ∀ name ∈ ["package", "dependencies"], name ∈ ownParts := by decide
    exact hown other hother (heq ▸ hfixed name hname)
  · intro name hname other hother heq
    have hfixed : ∀ other ∈ ["workspace", "bin"],
        other ∈ ownParts ∧ other ∉ ["package", "dependencies"] := by decide
    rcases List.mem_append.mp hname with hhead | hpart
    · exact (hfixed other hother).2 (heq ▸ hhead)
    · exact hown name hpart (heq ▸ (hfixed other hother).1)

theorem Sound.toTable_eq {manifest : Manifest} (h : manifest.Sound) :
    manifest.toTable = manifest.head ++ sortedEntries manifest.extra ++ manifest.tail :=
  Entries.ofList_of_nodup h.nodup_parts

theorem write_eq_ok_iff {manifest : Manifest} {text : String} :
    manifest.write = .ok text ↔ manifest.unnamed = [] ∧ Writable manifest.toTable ∧
      Toml.write manifest.toTable = text := by
  unfold write Writable
  cases manifest.unnamed with
  | nil =>
      simp only [List.find?_nil, List.isEmpty_nil, Bool.true_and, true_and]
      cases (Value.table manifest.toTable).all isShort <;>
        cases (Value.table manifest.toTable).all isWhole <;> simp
  | cons first rest =>
      refine iff_of_false ?_ fun h => List.cons_ne_nil first rest h.1
      split
      · nofun
      · dsimp only
        split
        · nofun
        · nofun

/-! ## Alike manifests -/

/-- The manifests differ in the order of entries only. -/
structure Alike (manifest other : Manifest) : Prop where
  name : manifest.package.name.Alike other.package.name
  version : manifest.package.version.Alike other.package.version
  edition : manifest.package.edition.Alike other.package.edition
  binaries : manifest.binariesValue.Alike other.binariesValue
  dependencies : (Value.table manifest.dependencies).Alike (.table other.dependencies)
  extra : (Value.table manifest.extra).Alike (.table other.extra)

theorem Alike.symm {manifest other : Manifest} (h : manifest.Alike other) :
    other.Alike manifest :=
  ⟨h.name.symm, h.version.symm, h.edition.symm, h.binaries.symm, h.dependencies.symm,
    h.extra.symm⟩

theorem Alike.trans {manifest other third : Manifest} (h : manifest.Alike other)
    (hnext : other.Alike third) : manifest.Alike third :=
  ⟨h.name.trans hnext.name, h.version.trans hnext.version, h.edition.trans hnext.edition,
    h.binaries.trans hnext.binaries, h.dependencies.trans hnext.dependencies,
    h.extra.trans hnext.extra⟩

/-- Alike manifests mean the same. -/
theorem Alike.same {manifest other : Manifest} (h : manifest.Alike other)
    (hnan : manifest.NanFree) (hmanifest : manifest.Sound) (hother : other.Sound) :
    manifest.same other = true := by
  have hname := h.name.same hnan.name hmanifest.distinct.name hother.distinct.name
  have hversion := h.version.same hnan.version hmanifest.distinct.version hother.distinct.version
  have hedition := h.edition.same hnan.edition hmanifest.distinct.edition hother.distinct.edition
  have hbinaries := h.binaries.same hnan.binaries hmanifest.distinct.binaries
    hother.distinct.binaries
  have hdependencies := h.dependencies.same hnan.dependencies hmanifest.distinct.dependencies
    hother.distinct.dependencies
  have hextra := h.extra.same hnan.extra hmanifest.distinct.extra hother.distinct.extra
  unfold binariesValue at hbinaries
  unfold Manifest.same
  rw [hname, hversion, hedition, hbinaries, hdependencies, hextra]
  rfl

/-! ## Reading a document that was written -/

theorem binaryOf_of_alike {binary : Binary} {element : Value}
    (h : (Value.table binary.toTable).Alike element) (helement : element.Distinct) :
    ∃ found, binaryOf? element = some found ∧
      (Value.table binary.toTable).Alike (.table found.toTable) := by
  obtain ⟨entries, rfl⟩ := h.exists_table
  have hkeys : binary.toTable.keys.Nodup := (by decide : ["name", "path"].Nodup)
  have hname : binary.toTable.get? "name" = some binary.name := rfl
  have hpath : binary.toTable.get? "path" = some binary.path := rfl
  obtain ⟨name, hfoundName, hnameAlike⟩ := h.get? hkeys helement.nodup hname
  obtain ⟨path, hfoundPath, hpathAlike⟩ := h.get? hkeys helement.nodup hpath
  refine ⟨⟨name, path⟩, ?_, ?_⟩
  · simp only [binaryOf?, Value.table?, hfoundName, hfoundPath, bind, Option.bind, pure]
  · show Value.table (Entries.sorted [("name", binary.name.sorted), ("path", binary.path.sorted)]) =
      .table (Entries.sorted [("name", name.sorted), ("path", path.sorted)])
    rw [show binary.name.sorted = name.sorted from hnameAlike,
      show binary.path.sorted = path.sorted from hpathAlike]

/-- The elements that write binaries are read as binaries, each. -/
theorem binaries_of_alike {binaries : List Binary} {elements : List Value}
    (h : (binaries.map fun binary => Value.table binary.toTable).map Value.sorted =
      elements.map Value.sorted) (helements : ∀ element ∈ elements, element.Distinct) :
    (binaries.map fun binary => Value.table binary.toTable).map Value.sorted =
      ((elements.filterMap binaryOf?).map fun binary => Value.table binary.toTable).map
        Value.sorted := by
  induction binaries generalizing elements with
  | nil =>
      obtain rfl := List.map_eq_nil_iff.mp h.symm
      rfl
  | cons binary rest ih =>
      cases elements with
      | nil => cases h
      | cons element elements =>
          obtain ⟨hfirst, hrest⟩ := List.cons.inj h
          obtain ⟨found, hfound, halike⟩ :=
            binaryOf_of_alike hfirst (helements element List.mem_cons_self)
          have hlater := ih hrest fun other hother =>
            helements other (List.mem_cons_of_mem _ hother)
          rw [List.filterMap_cons, hfound]
          exact congrArg₂ List.cons halike hlater

section

variable {manifest : Manifest} {document : Table}
  (halike : (Value.table manifest.toTable).Alike (.table document)) (h : manifest.Sound)
  (hdocument : DistinctTable document)

include halike h hdocument

/-- A part of the manifest is found in the document. -/
theorem exists_part {name : String} {value : Value}
    (hmem : (name, value) ∈ manifest.head ++ sortedEntries manifest.extra ++ manifest.tail) :
    ∃ found, document.get? name = some found ∧ value.Alike found := by
  have hkeys : manifest.toTable.keys.Nodup := h.toTable_eq ▸ h.nodup_parts
  refine halike.get? hkeys hdocument.nodup ((Entries.get?_eq_some_iff hkeys).mpr ?_)
  rwa [h.toTable_eq]

theorem readPackage_of_alike :
    ∃ package, readPackage document = .ok package ∧
      manifest.package.name.Alike package.name ∧
      manifest.package.version.Alike package.version ∧
      manifest.package.edition.Alike package.edition := by
  have hmem : ("package", Value.table manifest.package.toTable) ∈
      manifest.head ++ sortedEntries manifest.extra ++ manifest.tail :=
    List.mem_append_left _ (List.mem_append_left _ List.mem_cons_self)
  obtain ⟨value, hget, hvalue⟩ := exists_part halike h hdocument hmem
  obtain ⟨entries, rfl⟩ := hvalue.exists_table
  have hkeys : manifest.package.toTable.keys.Nodup :=
    (by decide : ["name", "version", "edition"].Nodup)
  have hentries : (Entries.keys entries).Nodup := (hdocument.of_get? hget).nodup
  have hname : manifest.package.toTable.get? "name" = some manifest.package.name := rfl
  have hversion : manifest.package.toTable.get? "version" = some manifest.package.version := rfl
  have hedition : manifest.package.toTable.get? "edition" = some manifest.package.edition := rfl
  obtain ⟨name, hfoundName, hnameAlike⟩ := hvalue.get? hkeys hentries hname
  obtain ⟨version, hfoundVersion, hversionAlike⟩ := hvalue.get? hkeys hentries hversion
  obtain ⟨edition, hfoundEdition, heditionAlike⟩ := hvalue.get? hkeys hentries hedition
  refine ⟨⟨name, version, edition⟩, ?_, hnameAlike, hversionAlike, heditionAlike⟩
  simp only [readPackage, hget, bind, Option.bind, Value.table?, hfoundName, hfoundVersion,
    hfoundEdition, Option.getD_some]

theorem readBinaries_of_alike :
    ∃ binaries, readBinaries document = .ok binaries ∧ manifest.binariesValue.Alike
      (.array (binaries.map fun binary => .table binary.toTable)) := by
  have hmem : ("bin", manifest.binariesValue) ∈
      manifest.head ++ sortedEntries manifest.extra ++ manifest.tail :=
    List.mem_append_right _ (List.mem_cons_of_mem _ List.mem_cons_self)
  obtain ⟨value, hget, hvalue⟩ := exists_part halike h hdocument hmem
  obtain ⟨elements, rfl, hmap⟩ := hvalue.exists_array
  refine ⟨elements.filterMap binaryOf?, ?_, ?_⟩
  · simp only [readBinaries, hget, parts?]
  · exact alike_array (binaries_of_alike hmap (hdocument.of_get? hget).of_array)

theorem readDependencies_of_alike :
    ∃ dependencies, readDependencies document = .ok (dependencies, []) ∧
      (Value.table manifest.dependencies).Alike (.table dependencies) := by
  have hmem : ("dependencies", Value.table (sortedEntries manifest.dependencies)) ∈
      manifest.head ++ sortedEntries manifest.extra ++ manifest.tail :=
    List.mem_append_left _ (List.mem_append_left _
      (List.mem_cons_of_mem _ List.mem_cons_self))
  obtain ⟨value, hget, hvalue⟩ := exists_part halike h hdocument hmem
  obtain ⟨entries, rfl⟩ := hvalue.exists_table
  refine ⟨entries, ?_, (alike_sortedEntries h.distinct.dependencies.nodup).trans hvalue⟩
  simp only [readDependencies, hget]

omit hdocument in
theorem extraParts_of_alike :
    (Value.table manifest.extra).Alike (.table (extraParts document)) := by
  have hkeys : manifest.toTable.keys.Nodup := h.toTable_eq ▸ h.nodup_parts
  have hextra : extraParts manifest.toTable = sortedEntries manifest.extra := by
    have hall : ∀ entry ∈ sortedEntries manifest.extra,
        (!ownParts.contains entry.1) = true := fun entry hentry => by
      have hapart := h.apart entry ((sortedEntries_perm _).mem_iff.mp hentry)
      rw [Bool.not_eq_true', Bool.eq_false_iff]
      exact fun hmem => hapart (List.contains_iff_mem.mp hmem)
    rw [h.toTable_eq]
    unfold extraParts
    rw [List.filter_append, List.filter_append, List.filter_eq_self.mpr hall]
    exact List.append_nil _
  refine (alike_sortedEntries h.distinct.extra.nodup).trans ?_
  rw [← hextra]
  exact halike.filter hkeys fun name => !ownParts.contains name

/-- **A document that is alike is read as an alike manifest.** -/
theorem ofTable_of_alike :
    ∃ found, ofTable document = .ok found ∧ found.unnamed = [] ∧ manifest.Alike found := by
  obtain ⟨package, hpackage, hname, hversion, hedition⟩ := readPackage_of_alike halike h hdocument
  obtain ⟨binaries, hbinaries, hbinariesAlike⟩ := readBinaries_of_alike halike h hdocument
  obtain ⟨dependencies, hdependencies, hdependenciesAlike⟩ :=
    readDependencies_of_alike halike h hdocument
  refine ⟨⟨package, binaries, dependencies, [], extraParts document⟩, ?_, rfl, hname, hversion,
    hedition, hbinariesAlike, hdependenciesAlike, extraParts_of_alike halike h⟩
  simp only [ofTable, hpackage, hbinaries, hdependencies, bind, Except.bind, pure, Except.pure]

end

/-- The text of a manifest is read as an alike manifest. -/
theorem read_of_write {manifest : Manifest} {text : String} (h : manifest.Sound)
    (hwrite : manifest.write = .ok text) (hback : ReadsBack manifest.toTable) :
    ∃ found, read text = .ok found ∧ found.unnamed = [] ∧ manifest.Alike found := by
  obtain ⟨-, document, hparse, halike⟩ := hback
  rw [(write_eq_ok_iff.mp hwrite).2.2] at hparse
  obtain ⟨found, hfound, hunnamed, hmanifest⟩ :=
    ofTable_of_alike halike.symm h (distinct_of_parse hparse)
  refine ⟨found, ?_, hunnamed, hmanifest⟩
  unfold read Manifest.document
  rw [hparse]
  exact hfound

/-! ## Canonical texts -/

/-- The manifests give the same package, the same binaries, and the same dependencies and further
parts, in any order. -/
structure Rearranged (manifest other : Manifest) : Prop where
  package : other.package = manifest.package
  binaries : other.binaries = manifest.binaries
  dependencies : other.dependencies.Perm manifest.dependencies
  unnamed : other.unnamed.Perm manifest.unnamed
  extra : other.extra.Perm manifest.extra

/-- Rearranging a manifest does not change its document. -/
theorem Rearranged.toTable {manifest other : Manifest} (h : manifest.Rearranged other)
    (hmanifest : manifest.Sound) : other.toTable = manifest.toTable := by
  have hdependencies : sortedEntries other.dependencies = sortedEntries manifest.dependencies :=
    (Entries.sorted_congr hmanifest.distinct.dependencies.nodup h.dependencies.symm).symm
  have hextra : sortedEntries other.extra = sortedEntries manifest.extra :=
    (Entries.sorted_congr hmanifest.distinct.extra.nodup h.extra.symm).symm
  unfold Manifest.toTable head tail
  rw [h.package, h.binaries, hdependencies, hextra]

/-- **The text of a manifest is a faithful canonical form.** A manifest without NaN that was read
or merged is written to a text. Where the writer and the reader of documents fit together, that text
is read as a manifest that means the same; every rearrangement of the manifest has the same text;
and every other such manifest that has the same text means the same. -/
theorem write_canonical {manifest : Manifest} {text : String} (h : manifest.Arises)
    (hnan : manifest.NanFree) (hwrite : manifest.write = .ok text)
    (hback : ReadsBack manifest.toTable) :
    (∃ found, read text = .ok found ∧ found.unnamed = [] ∧ manifest.same found = true) ∧
    (∀ other, manifest.Rearranged other → other.write = .ok text) ∧
    (∀ other, other.Arises → other.write = .ok text → ReadsBack other.toTable →
      manifest.same other = true) := by
  obtain ⟨found, hread, hunnamed, halike⟩ := read_of_write h.sound hwrite hback
  refine ⟨⟨found, hread, hunnamed, halike.same hnan h.sound (sound_of_read hread)⟩, ?_, ?_⟩
  · intro other hother
    obtain ⟨hnone, htable⟩ := write_eq_ok_iff.mp hwrite
    refine write_eq_ok_iff.mpr ⟨List.perm_nil.mp (hnone ▸ hother.unnamed), ?_⟩
    rw [hother.toTable h.sound]
    exact htable
  · intro other hother hotherWrite hotherBack
    obtain ⟨found', hread', -, halike'⟩ := read_of_write hother.sound hotherWrite hotherBack
    rw [hread] at hread'
    rw [← Except.ok.inj hread'] at halike'
    exact (halike.trans halike'.symm).same hnan h.sound hother.sound

/-! ## An example -/

/-- A text with dependencies as a list of pairs, a binary that is none and a further part. -/
def paired : String :=
  "dependencies = [[\"b\", \"2\"], \"a1\"]\nbin = [1]\n" ++
    "[package]\nname = \"demo\"\n[profile.dev]\ndebug = true\n"

/-- The manifest with these dependencies that `paired` describes otherwise. -/
def pairedWith (dependencies : Table) : Manifest where
  package := ⟨.string "demo", .string "0.0.1", .string "2021"⟩
  binaries := []
  dependencies := dependencies
  unnamed := []
  extra := [("profile", .table [("dev", .table [("debug", .boolean true)])])]

/-- The manifest that `paired` describes. -/
def pairedManifest : Manifest := pairedWith [("b", .string "2"), ("a", .string "1")]

/-- The tables of its document. -/
def pairedTables : Table :=
  [("package", .table [("name", .string "demo"), ("version", .string "0.0.1"),
      ("edition", .string "2021")]),
    ("dependencies", .table [("a", .string "1"), ("b", .string "2")]),
    ("profile", .table [("dev", .table [("debug", .boolean true)])]),
    ("workspace", .table [])]

theorem toTable_pairedManifest : pairedManifest.toTable = pairedTables ++ [("bin", .array [])] := by
  cbv

theorem read_paired : read paired = .ok pairedManifest := by cbv

theorem nanFree_pairedManifest : pairedManifest.NanFree := by
  have hstring : ∀ text, (Value.string text).NanFree := fun _ => .scalar rfl nofun
  have hdebug : (Value.table [("debug", .boolean true)]).NanFree :=
    .table nofun (List.forall_mem_singleton.mpr (.scalar rfl nofun))
  have hdev : (Value.table [("dev", .table [("debug", .boolean true)])]).NanFree :=
    .table nofun (List.forall_mem_singleton.mpr hdebug)
  have hdependencies : (Value.table [("b", .string "2"), ("a", .string "1")]).NanFree :=
    .table nofun (List.forall_mem_cons.mpr ⟨hstring _, List.forall_mem_singleton.mpr (hstring _)⟩)
  exact ⟨hstring _, hstring _, hstring _, .array nofun nofun, hdependencies,
    .table nofun (List.forall_mem_singleton.mpr hdev)⟩

theorem readsBack_pairedManifest : ReadsBack pairedManifest.toTable := by
  have htext : Toml.write (pairedTables ++ [("bin", .array [])]) =
      "bin = []\n\n[package]\nname = \"demo\"\nversion = \"0.0.1\"\nedition = \"2021\"\n\n" ++
        "[dependencies]\na = \"1\"\nb = \"2\"\n\n[profile.dev]\ndebug = true\n\n[workspace]\n" := by
    decide +kernel
  rw [toTable_pairedManifest]
  -- the array is written in front of the tables
  refine ⟨⟨by decide, by decide⟩, ("bin", .array []) :: pairedTables, ?_, ?_⟩
  · rw [htext]
    cbv
  · have hkeys : (Entries.keys (("bin", .array []) :: pairedTables)).Nodup :=
      (by decide : ["bin", "package", "dependencies", "profile", "workspace"].Nodup)
    rw [alike_table_iff hkeys, sortedValues_eq, sortedValues_eq]
    exact ((List.perm_append_singleton _ pairedTables).map _).symm

/-- The text is read, written and read again. The other order of dependencies gives the same
text. -/
theorem write_canonical_paired :
    ∃ text found, read paired = .ok pairedManifest ∧ pairedManifest.write = .ok text ∧
      read text = .ok found ∧ pairedManifest.same found = true ∧
      (pairedWith [("a", .string "1"), ("b", .string "2")]).write = .ok text := by
  have hwrite : pairedManifest.write = .ok (Toml.write pairedManifest.toTable) :=
    write_eq_ok_iff.mpr ⟨rfl, readsBack_pairedManifest.1, rfl⟩
  obtain ⟨⟨found, hfound, -, hsame⟩, hrearranged, -⟩ := write_canonical (.read read_paired)
    nanFree_pairedManifest hwrite readsBack_pairedManifest
  have hother : pairedManifest.Rearranged (pairedWith [("a", .string "1"), ("b", .string "2")]) :=
    ⟨rfl, rfl, .swap _ _ _, .nil, .refl _⟩
  exact ⟨_, found, read_paired, hwrite, hfound, hsame, hrearranged _ hother⟩

end RustScript.Manifest
