import RustScript.Proofs.Manifest.Canonical

/-!
# What a fragment can change

A fragment decides about the dependencies, the version and the edition of the package, and whatever
the project has no parts of its own for. The name of the package, its binary and its workspace are
out of its reach: what the document that is written says about them does not depend on the fragment,
and every other part of the fragment is found in it again (`Holds`). What else a fragment says makes
no difference (`fragment_isolated`).
-/

set_option autoImplicit false

namespace RustScript.Manifest

open RustScript.Toml RustScript.Registry RustScript.Source

variable {σ : Type}

/-- The resolver gives releases with texts for names. -/
def NamesTexts (resolver : Resolver σ) : Prop :=
  ∀ name world release, (resolver.resolve name world).1 = .ok release →
    ∃ text, release.name = .string (.ofString text)

theorem namesTexts_of_honours {resolver : Resolver σ} (h : resolver.Honours) :
    NamesTexts resolver := fun name world release hrelease => by
  obtain ⟨text, htext, -⟩ := h name world release hrelease
  exact ⟨text, htext⟩

/-! ## The manifest of a fragment -/

theorem exists_declared {text : String} {document : Table} (h : fragment text = .ok document) :
    ∃ declared, declaredDependencies document = .ok declared := by
  unfold fragment at h
  cases hdocument : Manifest.document text with
  | error cause =>
      rw [hdocument] at h
      cases h
  | ok table =>
      rw [hdocument] at h
      cases hdeclared : declaredDependencies table with
      | error cause =>
          simp only [hdeclared, bind, Except.bind] at h
          cases h
      | ok declared =>
          simp only [hdeclared, bind, Except.bind, pure, Except.pure, Except.ok.injEq] at h
          exact ⟨declared, h ▸ hdeclared⟩

/-- The manifest with what the document of a fragment declares. -/
def declaring (manifest : Manifest) (document declared : Table) : Manifest :=
  { manifest with
    package := Package.withDeclared manifest.package (document.get? "package")
    dependencies := (keepFirst declared).1
    extra := extraParts document }

theorem declare_of_fragment (manifest : Manifest) {text : String} {document declared : Table}
    (h : fragment text = .ok document) (hdeclared : declaredDependencies document = .ok declared) :
    declare manifest (some text) =
      .ok (declaring manifest document declared, (keepFirst declared).2) := by
  unfold declare
  simp only [h, hdeclared, bind, Except.bind, pure, Except.pure]
  rfl

/-- What the package of a document says under a key, if it is a table. -/
def packagePart (document : Table) (key : String) : Option Value :=
  (document.get? "package" >>= Value.table?) >>= fun entries => entries.get? key

/-- The version and the edition that the document of a fragment gives can be shown. -/
def showsParts (document : Table) : Bool :=
  ["version", "edition"].all fun key => ((packagePart document key).map (Value.all isShort)).getD true

theorem showsPackage_of_fragment {text : String} {document : Table}
    (h : fragment text = .ok document) : showsPackage (some text) = showsParts document := by
  unfold showsPackage showsParts packagePart
  rw [Option.map_some, h]
  dsimp only
  cases document.get? "package" >>= Value.table? with
  | none => rfl
  | some entries => rfl

/-- The version or the edition that a package gets: the one that is declared, or the given one. -/
def declaredText (document : Table) (key given : String) : String :=
  ((packagePart document key).getD (.string given)).shown

theorem withDeclared_eq (document : Table) (name : Value) (version edition : String) :
    Package.withDeclared ⟨name, .string version, .string edition⟩ (document.get? "package") =
      ⟨name, .string (declaredText document "version" version),
        .string (declaredText document "edition" edition)⟩ := by
  unfold Package.withDeclared declaredText packagePart
  cases document.get? "package" >>= Value.table? with
  | none => rfl
  | some entries => rfl

section

variable {resolver : Resolver σ} {version edition stem : String} {metadata metadata' : Metadata}
  {binary : Path} {world after : World σ} {manifest : Manifest} {text : String} {document : Table}
  (hembedded : metadata.embedded = some text) (hdocument : fragment text = .ok document)
  (hmerge : merge resolver version edition metadata stem binary world =
    ((metadata', .ok manifest), after))

include hembedded hdocument hmerge

/-- The parts of a manifest that do not depend on the registry. -/
theorem parts_of_merge :
    manifest.package = ⟨.string stem, .string (declaredText document "version" version),
        .string (declaredText document "edition" edition)⟩ ∧
      manifest.binaries = [⟨.string stem, .string binary.toString⟩] ∧
      manifest.extra = extraParts document := by
  obtain ⟨kept, warnings, answers, found, hdeclare, -, -, -, -, rfl⟩ := merge_eq_ok hmerge
  obtain ⟨declared, hdeclared⟩ := exists_declared hdocument
  rw [hembedded, declare_of_fragment _ hdocument hdeclared] at hdeclare
  obtain ⟨rfl, -⟩ := Prod.mk.inj (Except.ok.inj hdeclare)
  exact ⟨withDeclared_eq document _ _ _, rfl, rfl⟩

omit hembedded hdocument in
/-- Texts name all dependencies if the resolver gives texts. -/
theorem unnamed_of_merge (hresolver : NamesTexts resolver) : manifest.unnamed = [] := by
  obtain ⟨declared, calls, -, -, -, hrun⟩ := mergeRun_of_merge hmerge
  refine hrun.unnamed fun call hcall => ?_
  obtain ⟨release, hrelease⟩ := hrun.answered call hcall
  obtain ⟨asked, -, hanswer⟩ := hrun.genuine call hcall
  obtain ⟨name, hname⟩ := hresolver call.1 asked release (hanswer.trans hrelease)
  have hread : readAnswer call.2 = .ok (.ok (.string name, .ofRaw release.version)) := by
    obtain ⟨found, number⟩ := release
    obtain rfl : found = .string name := hname
    rw [hrelease, ← Value.ofRaw_ofString]
    rfl
  unfold callPair?
  rw [hread]
  rfl

end

/-! ## The document that is written -/

/-- What the document of a project holds of the document of a fragment: everything but the parts
that the project has of its own, and these are its own; its name is `stem`, and its source is at
`path`. -/
structure Holds (document : Table) (stem path : String) (written : Table) : Prop where
  passed : ∀ key value, key ∉ ownParts → document.get? key = some value →
    ∃ found, written.get? key = some found ∧ value.same found = true
  rest : ∀ key ∈ written.keys, key ∈ ownParts ∨ key ∈ document.keys
  binary : ∃ found, written.get? "bin" = some found ∧
    Value.same (.array [.table [("name", .string stem), ("path", .string path)]]) found = true
  workspace : written.get? "workspace" = some (.table [])
  package : ∃ found version edition, written.get? "package" = some found ∧
    Value.same (.table [("name", .string stem), ("version", .string version),
      ("edition", .string edition)]) found = true
  dependencies : ∃ entries, written.get? "dependencies" = some (.table entries)

/-- A table of texts. -/
def texts (entries : List (String × String)) : Table :=
  entries.map fun entry => (entry.1, .string entry.2)

theorem nanFree_texts (entries : List (String × String)) : (Value.table (texts entries)).NanFree := by
  refine .table nofun fun entry hentry => ?_
  obtain ⟨text, -, rfl⟩ := List.mem_map.mp hentry
  exact .scalar rfl nofun

theorem distinct_texts (entries : List (String × String)) (h : (entries.map Prod.fst).Nodup) :
    (Value.table (texts entries)).Distinct := by
  refine .table ?_ fun entry hentry => ?_
  · show (Entries.keys (texts entries)).Nodup
    unfold Entries.keys texts
    rwa [List.map_map]
  · obtain ⟨text, -, rfl⟩ := List.mem_map.mp hentry
    exact distinct_scalar rfl

section

variable {manifest : Manifest} {document written : Table} {stem path version edition : String}
  (hmanifest : manifest.Sound) (halike : (Value.table manifest.toTable).Alike (.table written))
  (hwritten : DistinctTable written)

include hmanifest halike hwritten

/-- The document says nothing that the manifest does not say. -/
theorem mem_of_written {key : String} (h : key ∈ written.keys) :
    key ∈ ownParts ∨ key ∈ manifest.extra.keys := by
  obtain ⟨entry, hentry, rfl⟩ := List.mem_map.mp h
  have hkeys : manifest.toTable.keys.Nodup := hmanifest.toTable_eq ▸ hmanifest.nodup_parts
  obtain ⟨value, hvalue, -⟩ := halike.symm.get? hwritten.nodup hkeys
    ((Entries.get?_eq_some_iff hwritten.nodup).mpr hentry)
  have hmem := Entries.mem_of_get? hvalue
  rw [hmanifest.toTable_eq] at hmem
  rcases List.mem_append.mp hmem with hfront | htail
  · rcases List.mem_append.mp hfront with hhead | hextra
    · refine .inl ?_
      have hown : ∀ name ∈ Entries.keys manifest.head, name ∈ ownParts :=
        (by decide : ∀ name ∈ ["package", "dependencies"], name ∈ ownParts)
      exact hown _ (List.mem_map.mpr ⟨_, hhead, rfl⟩)
    · exact .inr (List.mem_map.mpr
        ⟨_, (sortedEntries_perm manifest.extra).mem_iff.mp hextra, rfl⟩)
  · refine .inl ?_
    have hown : ∀ name ∈ Entries.keys manifest.tail, name ∈ ownParts :=
      (by decide : ∀ name ∈ ["workspace", "bin"], name ∈ ownParts)
    exact hown _ (List.mem_map.mpr ⟨_, htail, rfl⟩)

theorem holds_of_alike (hdocument : DistinctTable document)
    (hnan : (Value.table document).NanFree) (hextra : manifest.extra = extraParts document)
    (hpackage : manifest.package = ⟨.string stem, .string version, .string edition⟩)
    (hbinaries : manifest.binaries = [⟨.string stem, .string path⟩]) :
    Holds document stem path written := by
  have hpart : ∀ name value, (name, value) ∈
      manifest.head ++ sortedEntries manifest.extra ++ manifest.tail →
        ∃ found, written.get? name = some found ∧ value.Alike found :=
    fun _ _ => exists_part halike hmanifest hwritten
  constructor
  · intro key value hkey hget
    have hmem : (key, value) ∈ manifest.extra := by
      rw [hextra]
      refine List.mem_filter.mpr ⟨Entries.mem_of_get? hget, ?_⟩
      rw [Bool.not_eq_true', Bool.eq_false_iff]
      exact fun hown => hkey (List.contains_iff_mem.mp hown)
    obtain ⟨found, hfound, hvalue⟩ := hpart key value (List.mem_append_left _ (List.mem_append_right _
      ((sortedEntries_perm manifest.extra).mem_iff.mpr hmem)))
    exact ⟨found, hfound,
      hvalue.same (hnan.of_get? hget) (hdocument.of_get? hget) (hwritten.of_get? hfound)⟩
  · intro key hkey
    refine (mem_of_written hmanifest halike hwritten hkey).imp_right fun hmem => ?_
    rw [hextra] at hmem
    exact (List.filter_sublist.map Prod.fst).subset hmem
  · obtain ⟨found, hfound, hvalue⟩ := hpart "bin" _
      (List.mem_append_right _ (List.mem_cons_of_mem _ List.mem_cons_self))
    rw [hbinaries] at hvalue
    refine ⟨found, hfound, hvalue.same ?_ ?_ (hwritten.of_get? hfound)⟩
    · exact .array nofun (List.forall_mem_singleton.mpr
        (nanFree_texts [("name", stem), ("path", path)]))
    · exact distinct_array (List.forall_mem_singleton.mpr
        (distinct_texts [("name", stem), ("path", path)] (by decide : ["name", "path"].Nodup)))
  · obtain ⟨found, hfound, hvalue⟩ := hpart "workspace" _
      (List.mem_append_right _ List.mem_cons_self)
    obtain ⟨entries, rfl⟩ := hvalue.exists_table
    obtain rfl := List.length_eq_zero_iff.mp (hvalue.length List.nodup_nil).symm
    exact hfound
  · obtain ⟨found, hfound, hvalue⟩ := hpart "package" _
      (List.mem_append_left _ (List.mem_append_left _ List.mem_cons_self))
    rw [hpackage] at hvalue
    refine ⟨found, version, edition, hfound, hvalue.same ?_ ?_ (hwritten.of_get? hfound)⟩
    · exact nanFree_texts [("name", stem), ("version", version), ("edition", edition)]
    · exact distinct_texts [("name", stem), ("version", version), ("edition", edition)]
        (by decide : ["name", "version", "edition"].Nodup)
  · obtain ⟨found, hfound, hvalue⟩ := hpart "dependencies" _
      (List.mem_append_left _ (List.mem_append_left _
        (List.mem_cons_of_mem _ List.mem_cons_self)))
    obtain ⟨entries, rfl⟩ := hvalue.exists_table
    exact ⟨entries, hfound⟩

end

/-! ## Fragments -/

/-- The documents of two fragments agree in all that a fragment can change. -/
structure Agree (document other : Table) : Prop where
  dependencies : other.get? "dependencies" = document.get? "dependencies"
  version : packagePart other "version" = packagePart document "version"
  edition : packagePart other "edition" = packagePart document "edition"
  extra : extraParts other = extraParts document

theorem Agree.showsParts {document other : Table} (h : Agree document other) :
    showsParts other = showsParts document := by
  unfold Manifest.showsParts
  simp only [List.all_cons, List.all_nil, h.version, h.edition]

theorem Agree.declaring {document other : Table} (h : Agree document other)
    (name path version edition : String) (declared : Table) :
    declaring (basic name path version edition) other declared =
      declaring (basic name path version edition) document declared := by
  unfold Manifest.declaring basic
  dsimp only
  rw [withDeclared_eq, withDeclared_eq, h.extra]
  unfold declaredText
  rw [h.version, h.edition]

/-- **A fragment cannot change more than it should.** A merge with a fragment without NaN, from
which a manifest arises, gives a text. Where the writer and the reader of documents fit together,
what is read from it holds the fragment but for the parts that a project has of its own. Fragments
that agree in the dependencies, the version, the edition and the further parts give the same
manifest, whatever else they say. -/
theorem fragment_isolated {resolver : Resolver σ} (hresolver : NamesTexts resolver)
    (version edition stem : String) {metadata : Metadata} (binary : Path) (world : World σ)
    {text : String} {document : Table} (hembedded : metadata.embedded = some text)
    (hdocument : fragment text = .ok document) :
    (∀ metadata' manifest after, (Value.table document).NanFree →
      merge resolver version edition metadata stem binary world =
        ((metadata', .ok manifest), after) → ReadsBack manifest.toTable →
      ∃ written table, manifest.write = .ok written ∧ Toml.parse written = .ok table ∧
        Holds document stem binary.toString table) ∧
    ∀ (similar : Metadata) otherText other, similar.inferred = metadata.inferred →
      similar.embedded = some otherText → fragment otherText = .ok other → Agree document other →
      (merge resolver version edition similar stem binary world).1.2 =
          (merge resolver version edition metadata stem binary world).1.2 ∧
        (merge resolver version edition similar stem binary world).2 =
          (merge resolver version edition metadata stem binary world).2 := by
  obtain ⟨declared, hdeclared⟩ := exists_declared hdocument
  constructor
  · intro metadata' manifest after hnan hmerge hback
    obtain ⟨hpackage, hbinaries, hextra⟩ := parts_of_merge hembedded hdocument hmerge
    have hsound : manifest.Sound :=
      sound_of_merge (congrArg (fun result => result.1.2) hmerge)
    obtain ⟨hwritable, table, hparse, halike⟩ := hback
    exact ⟨_, table, write_eq_ok_iff.mpr ⟨unnamed_of_merge hmerge hresolver, hwritable, rfl⟩, hparse,
      holds_of_alike hsound halike.symm (distinct_of_parse hparse)
        (distinct_of_fragment text document hdocument) hnan hextra hpackage hbinaries⟩
  · intro similar otherText other hinferred hsimilar hother hagree
    have hotherDeclared : declaredDependencies other = .ok declared := by
      unfold declaredDependencies at hdeclared ⊢
      rwa [hagree.dependencies]
    rw [merge_eq, merge_eq, hembedded, hsimilar, declare_of_fragment _ hdocument hdeclared,
      declare_of_fragment _ hother hotherDeclared, hagree.declaring, hinferred,
      showsPackage_of_fragment hdocument, showsPackage_of_fragment hother, hagree.showsParts]
    dsimp only
    split
    · exact ⟨rfl, rfl⟩
    · exact ⟨rfl, rfl⟩

/-- A fragment that meddles with the name, the binary and the workspace of the project. -/
def meddling : String :=
  "bin = 5\n[package]\nname = \"other\"\nversion = \"0.1.0\"\n[workspace]\nresolver = \"2\"\n" ++
    "[profile.dev]\ndebug = true\n"

/-- The same fragment without meddling. -/
def modest : String := "[package]\nversion = \"0.1.0\"\n[profile.dev]\ndebug = true\n"

/-- The document of the fragment that meddles. -/
def meddlingDocument : Table :=
  [("bin", .integer 5), ("package", .table [("name", .string "other"), ("version", .string "0.1.0")]),
    ("workspace", .table [("resolver", .string "2")]),
    ("profile", .table [("dev", .table [("debug", .boolean true)])])]

/-- The document of the other one. -/
def modestDocument : Table :=
  [("package", .table [("version", .string "0.1.0")]),
    ("profile", .table [("dev", .table [("debug", .boolean true)])])]

/-- A script with a fragment. -/
def declaringBy (text : String) : Metadata := ⟨"", [], none, some text, [], 0, .structural, []⟩

/-- The manifest of both. -/
def meddlingManifest : Manifest where
  package := ⟨.string "demo", .string "0.1.0", .string "2021"⟩
  binaries := [⟨.string "demo", .string "main.rs"⟩]
  dependencies := []
  unnamed := []
  extra := [("profile", .table [("dev", .table [("debug", .boolean true)])])]

theorem nanFree_meddlingDocument : (Value.table meddlingDocument).NanFree := by
  have hdebug : (Value.table [("debug", .boolean true)]).NanFree :=
    .table nofun (List.forall_mem_singleton.mpr (.scalar rfl nofun))
  refine .table nofun (List.forall_mem_cons.mpr ⟨.scalar rfl nofun, List.forall_mem_cons.mpr
    ⟨nanFree_texts [("name", "other"), ("version", "0.1.0")], List.forall_mem_cons.mpr
      ⟨nanFree_texts [("resolver", "2")], List.forall_mem_singleton.mpr ?_⟩⟩⟩)
  exact .table nofun (List.forall_mem_singleton.mpr hdebug)

/-- The tables of its document. -/
def meddlingTables : Table :=
  [("package", .table (texts [("name", "demo"), ("version", "0.1.0"), ("edition", "2021")])),
    ("dependencies", .table []),
    ("profile", .table [("dev", .table [("debug", .boolean true)])]), ("workspace", .table [])]

/-- The binaries of its document. -/
def meddlingBinaries : Value :=
  .array [.table (texts [("name", "demo"), ("path", "main.rs")])]

theorem toTable_meddlingManifest :
    meddlingManifest.toTable = meddlingTables ++ [("bin", meddlingBinaries)] := by
  cbv

set_option maxRecDepth 2000 in
theorem readsBack_meddlingManifest : ReadsBack meddlingManifest.toTable := by
  have htext : Toml.write (meddlingTables ++ [("bin", meddlingBinaries)]) =
      "bin = [\n    \x7b name = \"demo\", path = \"main.rs\" \x7d,\n]\n\n" ++
        "[package]\nname = \"demo\"\nversion = \"0.1.0\"\nedition = \"2021\"\n\n" ++
        "[dependencies]\n\n[profile.dev]\ndebug = true\n\n[workspace]\n" := by
    decide +kernel
  rw [toTable_meddlingManifest]
  -- the array is written in front of the tables
  refine ⟨⟨by decide, by decide⟩, ("bin", meddlingBinaries) :: meddlingTables, ?_, ?_⟩
  · rw [htext]
    cbv
  · have hkeys : (Entries.keys (("bin", meddlingBinaries) :: meddlingTables)).Nodup :=
      (by decide : ["bin", "package", "dependencies", "profile", "workspace"].Nodup)
    rw [alike_table_iff hkeys, sortedValues_eq, sortedValues_eq]
    exact ((List.perm_append_singleton _ meddlingTables).map _).symm

/-- What the first fragment says about the name, the binary and the workspace does not count. -/
theorem fragment_isolated_meddling :
    (∃ written table, meddlingManifest.write = .ok written ∧ Toml.parse written = .ok table ∧
      Holds meddlingDocument "demo" "main.rs" table) ∧
    (merge (Rehearsal.fixedResolver []) "0.0.1" "2021" (declaringBy modest) "demo"
      (Path.ofString "main.rs") (World.untouched .empty)).1.2 = .ok meddlingManifest := by
  have hdocument : fragment meddling = .ok meddlingDocument := by cbv
  have hmodest : fragment modest = .ok modestDocument := by cbv
  have hmerge : merge (Rehearsal.fixedResolver []) "0.0.1" "2021" (declaringBy meddling) "demo"
      (Path.ofString "main.rs") (World.untouched .empty) =
        ((declaringBy meddling, .ok meddlingManifest), World.untouched .empty) := by
    have hdeclare : declare (basic "demo" (Path.ofString "main.rs").toString "0.0.1"
        "2021") (declaringBy meddling).embedded = .ok (meddlingManifest, []) :=
      declare_of_fragment _ hdocument rfl
    have hmissing : missing (declaringBy meddling).inferred meddlingManifest.dependencies = [] := by
      cbv
    have hshows : showsPackage (declaringBy meddling).embedded = true :=
      (showsPackage_of_fragment hdocument).trans (by decide)
    rw [merge_eq, hdeclare]
    dsimp only
    rw [if_pos hshows, hmissing]
    rfl
  obtain ⟨hholds, hsame⟩ := fragment_isolated
    (namesTexts_of_honours (honours_fixedResolver [])) "0.0.1" "2021" "demo"
    (Path.ofString "main.rs") (World.untouched .empty)
    (show (declaringBy meddling).embedded = some meddling from rfl) hdocument
  refine ⟨hholds _ _ _ nanFree_meddlingDocument hmerge readsBack_meddlingManifest, ?_⟩
  obtain ⟨hresult, -⟩ := hsame (declaringBy modest) modest modestDocument rfl rfl hmodest
    ⟨rfl, rfl, rfl, rfl⟩
  rw [hresult, hmerge]

end RustScript.Manifest
