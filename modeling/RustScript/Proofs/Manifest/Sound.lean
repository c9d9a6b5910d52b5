import RustScript.Proofs.Manifest.Merge
import RustScript.Proofs.Toml.Distinct

/-!
# Manifests in which no key repeats

A manifest is sound if no key repeats in its tables and its further parts have names of their own.
So is every manifest that is read from a text or that a merge gives (`Arises.sound`).
-/

set_option autoImplicit false

namespace RustScript.Manifest

open RustScript.Toml RustScript.Registry RustScript.Source

variable {σ : Type}

/-! ## Sound manifests -/

/-- The binaries of the manifest as they are written. -/
def binariesValue (manifest : Manifest) : Value :=
  .array (manifest.binaries.map fun binary => .table binary.toTable)

/-- What the manifest says satisfies `P` throughout, but for dependencies that no texts name. -/
structure Throughout (P : Value → Prop) (manifest : Manifest) : Prop where
  name : manifest.package.name.Everywhere P
  version : manifest.package.version.Everywhere P
  edition : manifest.package.edition.Everywhere P
  binaries : manifest.binariesValue.Everywhere P
  dependencies : (Value.table manifest.dependencies).Everywhere P
  extra : (Value.table manifest.extra).Everywhere P

/-- No key repeats, and no further part has the name of a fixed one. -/
structure Sound (manifest : Manifest) : Prop where
  distinct : manifest.Throughout Keyed
  apart : ∀ entry ∈ manifest.extra, entry.1 ∉ ownParts

/-- The manifest holds no NaN. -/
def NanFree (manifest : Manifest) : Prop := manifest.Throughout (· ≠ .float .nan)

/-- The manifest was read from a text, or a merge gave it. -/
inductive Arises (manifest : Manifest) : Prop
  | read {text : String} : Manifest.read text = .ok manifest → Arises manifest
  | merge {σ : Type} {resolver : Resolver σ} {version edition stem : String} {metadata : Metadata}
      {binary : Path} {world : World σ} :
      (merge resolver version edition metadata stem binary world).1.2 = .ok manifest →
      Arises manifest

theorem distinct_binaries {binaries : List Binary}
    (h : ∀ binary ∈ binaries, binary.name.Distinct ∧ binary.path.Distinct) :
    (Value.array (binaries.map fun binary => .table binary.toTable)).Distinct := by
  refine distinct_array fun element helement => ?_
  obtain ⟨binary, hbinary, rfl⟩ := List.mem_map.mp helement
  obtain ⟨hname, hpath⟩ := h binary hbinary
  refine .table (by decide : ["name", "path"].Nodup) fun entry hentry => ?_
  rcases List.mem_cons.mp hentry with rfl | hentry
  · exact hname
  · exact List.mem_singleton.mp hentry ▸ hpath

/-! ## Manifests that are read -/

theorem distinct_extraParts {table : Table} (h : DistinctTable table) :
    DistinctTable (extraParts table) := by
  have hsublist : (extraParts table).Sublist table := List.filter_sublist
  exact .table (h.nodup.sublist (hsublist.map _)) fun entry hentry =>
    h.of_table entry (hsublist.subset hentry)

theorem apart_extraParts (table : Table) : ∀ entry ∈ extraParts table, entry.1 ∉ ownParts := by
  intro entry hentry hown
  have hfree := (List.mem_filter.mp hentry).2
  rw [List.contains_iff_mem.mpr hown] at hfree
  cases hfree

theorem distinct_parts {value : Value} (h : value.Distinct) {elements : List Value}
    (hparts : parts? value = some elements) : ∀ element ∈ elements, element.Distinct := by
  intro element helement
  cases value with
  | array _ => exact h.of_array element (Option.some.inj hparts ▸ helement)
  | string text =>
      rw [← Option.some.inj hparts] at helement
      obtain ⟨c, -, rfl⟩ := List.mem_map.mp helement
      exact distinct_scalar rfl
  | table entries =>
      rw [← Option.some.inj hparts] at helement
      obtain ⟨entry, -, rfl⟩ := List.mem_map.mp helement
      exact distinct_scalar rfl
  | _ => cases hparts

theorem distinct_pairOf {element : Value} (h : element.Distinct) :
    Ensures (fun pair : Value × Value => pair.2.Distinct) (pairOf element) := by
  unfold pairOf
  split
  · exact ensures_error _
  · exact ensures_error _
  · exact ensures_error _
  · next name value _ _ hparts =>
      exact ensures_ok (distinct_parts h hparts value (List.mem_cons_of_mem _ List.mem_cons_self))
  · exact ensures_error _

theorem distinct_addPair {found : Table × List (Value × Value)} (h : DistinctTable found.1)
    {pair : Value × Value} (hpair : pair.2.Distinct) : DistinctTable (addPair found pair).1 := by
  obtain ⟨name, value⟩ := pair
  cases name with
  | string name => exact distinct_put h name hpair
  | _ => exact h

theorem distinct_addPairs {found : Table × List (Value × Value)} (h : DistinctTable found.1)
    {pairs : List (Value × Value)} (hpairs : ∀ pair ∈ pairs, pair.2.Distinct) :
    DistinctTable (pairs.foldl addPair found).1 := by
  induction pairs generalizing found with
  | nil => exact h
  | cons pair rest ih =>
      exact ih (distinct_addPair h (hpairs pair List.mem_cons_self))
        fun other hother => hpairs other (List.mem_cons_of_mem _ hother)

theorem ensures_mapM {ε α β : Type} {P : α → Prop} {Q : β → Prop} {f : α → Except ε β}
    (hf : ∀ value, P value → Ensures Q (f value)) {values : List α}
    (h : ∀ value ∈ values, P value) :
    Ensures (fun results => ∀ result ∈ results, Q result) (values.mapM f) := by
  induction values with
  | nil => exact ensures_ok nofun
  | cons value rest ih =>
      rw [List.mapM_cons]
      exact (hf value (h value List.mem_cons_self)).bind fun first hfirst =>
        (ih fun other hother => h other (List.mem_cons_of_mem _ hother)).bind
          fun others hothers => ensures_ok (List.forall_mem_cons.mpr ⟨hfirst, hothers⟩)

section

variable {table : Table} (h : DistinctTable table)

include h

theorem ensures_readPackage : Ensures (fun package : Package =>
    package.name.Distinct ∧ package.version.Distinct ∧ package.edition.Distinct)
    (readPackage table) := by
  unfold readPackage
  split
  · exact ensures_error _
  · next entries hentries =>
      obtain ⟨value, hget, hvalue⟩ := Option.bind_eq_some_iff.mp hentries
      have htable : DistinctTable entries := by
        cases value with
        | table found =>
            obtain rfl := Option.some.inj hvalue
            exact h.of_get? hget
        | _ => cases hvalue
      have hdefault : ∀ key (text : String),
          ((entries.get? key).getD (.string text)).Distinct := fun key text => by
        cases hfound : entries.get? key with
        | none => exact distinct_scalar rfl
        | some found => exact htable.of_get? hfound
      split
      · exact ensures_error _
      · next name hname =>
          exact ensures_ok ⟨htable.of_get? hname, hdefault _ _, hdefault _ _⟩

theorem ensures_readBinaries : Ensures (fun binaries : List Binary =>
    ∀ binary ∈ binaries, binary.name.Distinct ∧ binary.path.Distinct) (readBinaries table) := by
  unfold readBinaries
  split
  · exact ensures_ok nofun
  · next value hget =>
      split
      · exact ensures_error _
      · next elements hparts =>
          refine ensures_ok fun binary hbinary => ?_
          obtain ⟨element, helement, hbinaryOf⟩ := List.mem_filterMap.mp hbinary
          have hdistinct := distinct_parts (h.of_get? hget) hparts element helement
          obtain ⟨entries, hentries, hbinaryOf⟩ := Option.bind_eq_some_iff.mp hbinaryOf
          obtain ⟨name, hname, hbinaryOf⟩ := Option.bind_eq_some_iff.mp hbinaryOf
          obtain ⟨path, hpath, hbinaryOf⟩ := Option.bind_eq_some_iff.mp hbinaryOf
          obtain rfl := Option.some.inj hbinaryOf
          cases element with
          | table found =>
              obtain rfl := Option.some.inj hentries
              exact ⟨hdistinct.of_get? hname, hdistinct.of_get? hpath⟩
          | _ => cases hentries

theorem ensures_readDependencies : Ensures (fun found : Table × List (Value × Value) =>
    DistinctTable found.1) (readDependencies table) := by
  unfold readDependencies
  split
  · exact ensures_ok distinct_nil
  · next entries hget => exact ensures_ok (h.of_get? hget)
  · next value _ hget =>
      split
      · exact ensures_error _
      · next elements hparts =>
          refine (ensures_mapM (fun _ => distinct_pairOf)
            (distinct_parts (h.of_get? hget) hparts)).bind fun pairs hpairs => ensures_ok ?_
          exact distinct_addPairs distinct_nil hpairs

theorem ensures_ofTable : Ensures Sound (ofTable table) := by
  unfold ofTable
  exact (ensures_readPackage h).bind fun package hpackage =>
    (ensures_readBinaries h).bind fun binaries hbinaries =>
      (ensures_readDependencies h).bind fun dependencies hdependencies =>
        ensures_ok {
          distinct := ⟨hpackage.1, hpackage.2.1, hpackage.2.2, distinct_binaries hbinaries,
            hdependencies, distinct_extraParts h⟩
          apart := apart_extraParts table }

end

theorem sound_of_read {text : String} {manifest : Manifest} (h : read text = .ok manifest) :
    manifest.Sound := by
  unfold read document at h
  cases hparse : Toml.parse text with
  | error error =>
      rw [hparse] at h
      cases h
  | ok table =>
      rw [hparse] at h
      exact ensures_ofTable (distinct_of_parse hparse) manifest h

/-! ## Manifests of scripts -/

theorem mem_of_mem_keepFirst {declared : Table} {entry : String × Value}
    (h : entry ∈ (keepFirst declared).1) : entry ∈ declared := by
  induction declared using List.reverseRecOn with
  | nil => exact h
  | append_singleton declared other ih =>
      cases hkept : spelled? (keepFirst declared).1 other.1 with
      | none =>
          rw [keepFirst_concat_new hkept] at h
          rcases List.mem_append.mp h with hold | hnew
          · exact List.mem_append_left _ (ih hold)
          · exact List.mem_append_right _ hnew
      | some owner =>
          rw [keepFirst_concat_known hkept] at h
          exact List.mem_append_left _ (ih h)

theorem nodup_of_inequivalent {table : Table} (h : Inequivalent table) : table.keys.Nodup := by
  refine List.pairwise_map.mpr (List.Pairwise.imp ?_ h)
  intro entry other hdiffer heq
  rw [heq, Crate.equivalent_self] at hdiffer
  cases hdiffer

theorem distinct_keepFirst {declared : Table} (h : DistinctTable declared) :
    DistinctTable (keepFirst declared).1 :=
  .table (nodup_of_inequivalent (inequivalent_keepFirst declared)) fun entry hentry =>
    h.of_table entry (mem_of_mem_keepFirst hentry)

theorem distinct_declaredDependencies {table : Table} (h : DistinctTable table) :
    Ensures DistinctTable (declaredDependencies table) := by
  unfold declaredDependencies
  split
  · exact ensures_ok distinct_nil
  · next entries hget => exact ensures_ok (h.of_get? hget)
  · exact ensures_error _

theorem distinct_of_fragment (text : String) : Ensures DistinctTable (fragment text) := by
  unfold fragment document
  cases hparse : Toml.parse text with
  | error error => exact ensures_error _
  | ok table =>
      have htable : Ensures DistinctTable (.ok table : Except Malformed Table) :=
        ensures_ok (distinct_of_parse hparse)
      exact htable.bind fun table htable => (ensures_true _).bind fun _ _ => ensures_ok htable

theorem sound_basic (name path version edition : String) :
    (basic name path version edition).Sound := by
  have hbinaries : ∀ binary ∈ (basic name path version edition).binaries,
      binary.name.Distinct ∧ binary.path.Distinct := fun binary hbinary => by
    obtain rfl := List.mem_singleton.mp hbinary
    exact ⟨distinct_scalar rfl, distinct_scalar rfl⟩
  exact ⟨⟨distinct_scalar rfl, distinct_scalar rfl, distinct_scalar rfl,
    distinct_binaries hbinaries, distinct_nil, distinct_nil⟩, nofun⟩

theorem distinct_withDeclared {package : Package} (declared : Option Value)
    (h : package.name.Distinct ∧ package.version.Distinct ∧ package.edition.Distinct) :
    (Package.withDeclared package declared).name.Distinct ∧
      (Package.withDeclared package declared).version.Distinct ∧
      (Package.withDeclared package declared).edition.Distinct := by
  unfold Package.withDeclared
  split
  · exact h
  · exact ⟨h.1, distinct_scalar rfl, distinct_scalar rfl⟩

/-- A fragment changes the package, the dependencies and the further parts only. -/
theorem ensures_declare {manifest : Manifest} (h : manifest.Sound) (embedded : Option String) :
    Ensures (fun found => found.1.Sound) (declare manifest embedded) := by
  cases embedded with
  | none => exact ensures_ok h
  | some text =>
      refine (distinct_of_fragment text).bind fun table htable =>
        (distinct_declaredDependencies htable).bind fun dependencies hdependencies =>
          ensures_ok ⟨?_, apart_extraParts table⟩
      obtain ⟨hname, hversion, hedition⟩ := distinct_withDeclared (table.get? "package")
        ⟨h.distinct.name, h.distinct.version, h.distinct.edition⟩
      exact ⟨hname, hversion, hedition, h.distinct.binaries, distinct_keepFirst hdependencies,
        distinct_extraParts htable⟩

theorem Sound.addDependencies {manifest : Manifest} (h : manifest.Sound)
    {found : List (Value × Value)} (hfound : ∀ pair ∈ found, pair.2.Distinct) :
    (manifest.addDependencies found).Sound := by
  have hdependencies : DistinctTable
      (found.foldl addPair (manifest.dependencies, manifest.unnamed)).1 :=
    distinct_addPairs h.distinct.dependencies hfound
  exact ⟨{ h.distinct with dependencies := hdependencies }, h.apart⟩

theorem isComposite_ofRaw (text : RawText) : isComposite (.ofRaw text) = false := by
  unfold Value.ofRaw
  split <;> rfl

/-- The registry gives versions as texts. -/
theorem ensures_readAnswer (answer : Except LookupError Release) :
    Ensures (fun answer : Answer => ∀ pair, answer = .ok pair → pair.2.Distinct)
      (readAnswer answer) := by
  cases answer with
  | error error =>
      unfold readAnswer
      dsimp only
      split
      · exact ensures_ok nofun
      · exact ensures_error _
  | ok release =>
      refine (ensures_true _).bind fun name _ => ensures_ok fun pair hpair => ?_
      rw [← Except.ok.inj hpair]
      exact distinct_scalar (isComposite_ofRaw release.version)

theorem ensures_lookUpAll (resolver : Resolver σ) (names : List String) (world : World σ) :
    Ensures (fun answers => ∀ answer ∈ answers, ∀ pair, answer = .ok pair → pair.2.Distinct)
      (lookUpAll resolver names world).1 := by
  induction names generalizing world with
  | nil => exact ensures_ok nofun
  | cons name rest ih =>
      rw [lookUpAll_cons]
      have hfirst := ensures_readAnswer (resolver.resolve name world).1
      cases hread : readAnswer (resolver.resolve name world).1 with
      | error error => exact ensures_error _
      | ok answer =>
          exact (ih (resolver.resolve name world).2).map fun answers hanswers =>
            List.forall_mem_cons.mpr ⟨hfirst answer hread, hanswers⟩

theorem sound_of_merge {resolver : Resolver σ} {version edition stem : String}
    {metadata : Metadata} {binary : Path} {world : World σ} {manifest : Manifest}
    (h : (merge resolver version edition metadata stem binary world).1.2 = .ok manifest) :
    manifest.Sound := by
  obtain ⟨kept, warnings, answers, found, hdeclare, -, -, hlooked, hcollect, rfl⟩ :=
    merge_eq_ok (Prod.ext (Prod.ext rfl h) rfl)
  have hkept : kept.Sound :=
    ensures_declare (sound_basic stem binary.toString version edition) _ _ hdeclare
  refine hkept.addDependencies fun pair hpair => ?_
  have hanswers := ensures_lookUpAll resolver (missing metadata.inferred kept.dependencies) world
    answers (congrArg Prod.fst hlooked)
  rw [collect_eq_ok_iff.mp hcollect] at hanswers
  exact hanswers (.ok pair) (List.mem_map.mpr ⟨pair, hpair, rfl⟩) pair rfl

/-- **No key repeats in a manifest** that is read from a text or given by a merge. -/
theorem Arises.sound {manifest : Manifest} (h : manifest.Arises) : manifest.Sound := by
  cases h with
  | read hread => exact sound_of_read hread
  | merge hmerge => exact sound_of_merge hmerge

end RustScript.Manifest
