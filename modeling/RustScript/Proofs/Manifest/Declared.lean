import RustScript.Proofs.Manifest.Merge

/-!
# Declared dependencies and the registry

A declared dependency stands in the manifest unless the registry sends a release under its very
name when it is asked for another crate. The search command never does that; a registry on the web
may, since its replies are trusted (`registry_contract`).
-/

set_option autoImplicit false

namespace RustScript

namespace Manifest

open RustScript.Toml RustScript.Source RustScript.Registry

variable {σ : Type}

/-! ## First spellings in the manifest -/

theorem get?_of_mem {table : Table} (h : Inequivalent table) {entry : String × Value}
    (hmem : entry ∈ table) : table.get? entry.1 = some entry.2 := by
  unfold Entries.get?
  cases hfind : table.find? (·.1 == entry.1) with
  | none =>
      have hkey := List.find?_eq_none.mp hfind entry hmem
      rw [beq_self_eq_true] at hkey
      exact absurd rfl hkey
  | some other =>
      have hkey : other.1 = entry.1 := beq_iff_eq.mp
        (@List.find?_some _ (fun pair : String × Value => pair.1 == entry.1) other table hfind)
      have hother : spelled? table entry.1 = some other :=
        spelled?_of_mem h (List.mem_of_find?_eq_some hfind) (by rw [hkey, Crate.equivalent_self])
      have hentry := spelled?_of_mem h hmem (Crate.equivalent_self entry.1)
      rw [Option.some.inj (hother.symm.trans hentry)]
      rfl

theorem get?_keepFirst {declared : Table} {entry : String × Value}
    (hfirst : spelled? declared entry.1 = some entry) :
    Entries.get? (keepFirst declared).1 entry.1 = some entry.2 := by
  rw [← spelled?_keepFirst] at hfirst
  exact get?_of_mem (inequivalent_keepFirst declared) (mem_of_spelled? hfirst)

/-- A first spelling is kept, and then gives way to what look-ups gave under its name. -/
theorem get?_of_mergeRun {resolver : Resolver σ} {start : World σ} {declared : Table}
    {inferred : List String} {calls : Transcript} {manifest : Manifest}
    (hrun : MergeRun resolver start declared inferred calls manifest) {entry : String × Value}
    (hfirst : spelled? declared entry.1 = some entry) :
    manifest.dependencies.get? entry.1 =
      some (((lookedUp calls).last? entry.1).getD entry.2) := by
  calc manifest.dependencies.get? entry.1
      = ((lookedUp calls).last? entry.1).or (Entries.get? (keepFirst declared).1 entry.1) := by
        rw [hrun.dependencies, Entries.get?_putAll]
    _ = ((lookedUp calls).last? entry.1).or (some entry.2) := by rw [get?_keepFirst hfirst]
    _ = some (((lookedUp calls).last? entry.1).getD entry.2) := by
        cases (lookedUp calls).last? entry.1 <;> rfl

/-- Honest look-ups give nothing under the name of a declared dependency. -/
theorem last?_lookedUp {resolver : Resolver σ} {start : World σ} {declared : Table}
    {inferred : List String} {calls : Transcript} {manifest : Manifest}
    (hrun : MergeRun resolver start declared inferred calls manifest) (hhonest : calls.Honest)
    {entry : String × Value} (hfirst : spelled? declared entry.1 = some entry) :
    (lookedUp calls).last? entry.1 = none := by
  have hall := inequivalent_kept_lookedUp hrun hhonest
  rw [← spelled?_keepFirst] at hfirst
  unfold Entries.last?
  rw [List.find?_eq_none.mpr]
  · rfl
  · intro other hother hkey
    have hdiffer := (inequivalent_append.mp hall).2.2 entry (mem_of_spelled? hfirst) other
      (List.mem_reverse.mp hother)
    rw [beq_iff_eq.mp hkey, Crate.equivalent_self] at hdiffer
    cases hdiffer

/-- Look-ups through a sound cache are honest if the resolver behind it honours the contract. -/
theorem honest_of_remembering {inner : Resolver σ} (hinner : inner.Honours)
    {start : World (Cache × σ)} (hstart : start.outside.1.Sound) {declared : Table}
    {inferred : List String} {calls : Transcript} {manifest : Manifest}
    (hrun : MergeRun (remembering inner) start declared inferred calls manifest) :
    calls.Honest := by
  intro name release hcall
  obtain ⟨world, hreaches, hanswer⟩ := hrun.genuine _ hcall
  have hsound := sound_of_reaches hinner hstart hreaches
  exact (remembering_sound hinner hsound name
    ⟨world.files, world.clock, world.readings, world.outside.2⟩).1 release hanswer

/-! ## The contract and what rests on it -/

/-- The settings choose a registry that gives only releases of the crates it is asked for. -/
def Trusty (settings : Settings) (client : Client σ) : Prop :=
  settings.registry = .search ∨ client.NamesCrates settings.registryAddress

/-- **The contract of registries**, for the resolver that remembers what the chosen registry gave.
It is kept in every sequence of look-ups exactly if the search command is chosen or the registry on
the web names the crates that its replies are about. In a merge a declared dependency stands exactly
if no look-up gives something else under its name; with a registry that keeps the contract that
never happens, whatever was looked up before. -/
theorem registry_contract (settings : Settings) (runner : Runner σ) (client : Client σ) :
    ((∀ steps, ∀ world : World σ,
        (cachedRun (settings.resolver runner client) steps (world.keeping [])).1.Honest) ↔
      Trusty settings client) ∧
    ∀ {version edition stem : String} {metadata metadata' : Metadata} {binary : Path}
      {cache : Cache} {world : World σ} {after : World (Cache × σ)} {manifest : Manifest},
      merge (remembering (settings.resolver runner client)) version edition metadata stem binary
        (world.keeping cache) = ((metadata', .ok manifest), after) →
      ∃ declared calls, declaredBy metadata.embedded = .ok declared ∧
        merge (recording (remembering (settings.resolver runner client))) version edition metadata
          stem binary ((world.keeping cache).keeping []) =
            ((metadata', .ok manifest), after.keeping calls) ∧
        ∀ entry, spelled? declared entry.1 = some entry →
          (manifest.dependencies.get? entry.1 = some entry.2 ↔
            ∀ value, (lookedUp calls).last? entry.1 = some value → value = entry.2) ∧
          (Trusty settings client → ∀ steps, ∀ before : World σ,
            cache = (cachedRun (settings.resolver runner client) steps
              (before.keeping [])).2.outside.1 →
            manifest.dependencies.get? entry.1 = some entry.2) := by
  refine ⟨(honest_cachedRun_iff _).trans (honours_resolver_iff settings runner client), ?_⟩
  intro version edition stem metadata metadata' binary cache world after manifest hmerge
  obtain ⟨declared, calls, hdeclared, -, hrecorded, hrun⟩ := mergeRun_of_merge hmerge
  refine ⟨declared, calls, hdeclared, hrecorded, ?_⟩
  intro entry hfirst
  rw [get?_of_mergeRun hrun hfirst]
  constructor
  · cases (lookedUp calls).last? entry.1 <;> simp
  · intro htrusty steps before hcache
    have hinner := (honours_resolver_iff settings runner client).mpr htrusty
    have hsound : cache.Sound := by
      rw [hcache]
      exact (cachedRun_sound hinner steps Cache.sound_nil before).2
    rw [last?_lookedUp hrun (honest_of_remembering hinner hsound hrun) hfirst]
    rfl

theorem registry_contract_search :
    ∃ metadata manifest after,
      merge (remembering ((Settings.standard (Path.ofString "build")).resolver
          Rehearsal.Cast.plain.runner (Rehearsal.client []))) "0.0.1" "2021"
          (declaringTwice ["serde"]) "demo" (Path.ofString "demo.rs")
          ((World.untouched Rehearsal.Trace.empty).keeping []) = ((metadata, .ok manifest), after) ∧
      manifest.dependencies.get? "serde" = some (.string "1") := by
  have hmissing : ∀ name, name ∉ missing ["serde"] (keepFirst serdeTwice).1 := by
    intro name hname
    obtain ⟨hneeded, hnew⟩ := (picked_missing _ _).candidate name hname
    rw [spelled?_keepFirst, List.mem_singleton.mp hneeded, spelled?_serdeTwice] at hnew
    cases hnew
  obtain ⟨manifest, after, hmerge⟩ := merge_complete "0.0.1" "2021" "demo"
    (Path.ofString "demo.rs") (declaredBy_declaringTwice ["serde"])
    (showsPackage_declaringTwice ["serde"]) (fun name hname => absurd hname (hmissing name))
    ((World.untouched Rehearsal.Trace.empty).keeping [])
  obtain ⟨declared, calls, hdeclares, -, hstands⟩ :=
    (registry_contract (Settings.standard (Path.ofString "build"))
      Rehearsal.Cast.plain.runner (Rehearsal.client [])).2 hmerge
  rw [declaredBy_declaringTwice] at hdeclares
  rw [← Except.ok.inj hdeclares] at hstands
  have hkept := (hstands ("serde", .string "1") spelled?_serdeTwice).2 (Or.inl rfl) []
    (World.untouched Rehearsal.Trace.empty) rfl
  exact ⟨_, manifest, after, hmerge, hkept⟩

/-- A registry on the web that sends the same reply whatever it is asked for. -/
def steady (reply : Reply) : Client σ := ⟨fun _ => pure (.ok reply), pure (), 900⟩

/-- A reply about `serde`, as a text. -/
def serdeText : String := "\x7b\"crate\":\x7b\"name\":\"serde\",\"max_version\":\"9.9.9\"\x7d\x7d"

/-- A reply about `serde`. -/
def serdeReply : Reply := ⟨200, serdeText.toList.map fun c => c.toNat.toUInt8⟩

/-- What the reply says about `serde`. -/
def serdeDescription : Json :=
  .object [(.ofString "name", .string "serde"), (.ofString "max_version", .string "9.9.9")]

/-- The settings that choose a registry on the web. -/
def webSettings : Settings := { Settings.standard (Path.ofString "build") with registry := .web }

-- the reader's fuel is a number of twice as many successors as the text is long
set_option maxRecDepth 4096 in
theorem ofBytes_serdeReply :
    Json.ofBytes 900 serdeReply.body = .ok (.object [(.ofString "crate", serdeDescription)]) := by
  have htext : Json.text? serdeReply.body = some (.ofString serdeText) := by
    decide +kernel
  unfold Json.ofBytes
  rw [htext]
  cbv

/-- What the registry says about `foo` when it replies about `serde`. -/
theorem resolve_foo (world : World σ) :
    ((webSettings.resolver (fun _ => pure (.error .incomplete)) (steady serdeReply)).resolve "foo"
      world).1 = .ok ⟨.string "serde", "9.9.9"⟩ := by
  have haddress : (crateAddress? webSettings.registryAddress "foo").isSome = true := by
    cbv
  obtain ⟨address, haddress⟩ := Option.isSome_iff_exists.mp haddress
  have hversion : pickVersion? serdeDescription = some (.ofString "9.9.9") := by
    cbv
  have hdescribes : serdeReply.Describes 900 serdeDescription :=
    ⟨by decide, ⟨_, ofBytes_serdeReply, rfl⟩, by rw [hversion]; rfl⟩
  have hinterpret : interpretReply 900 "foo" (.ok serdeReply) =
      .ok ⟨.string "serde", "9.9.9"⟩ :=
    interpretReply_eq_ok_iff.mpr ⟨_, _, hdescribes, hversion, rfl⟩
  show ((browsing (steady serdeReply) webSettings.registryAddress).resolve "foo" world).1 = _
  exact browsing_resolve_eq_ok_iff.mpr ⟨address, serdeReply, haddress, rfl, hinterpret⟩

/-- The reply about `serde` takes the place of the declared `serde`. -/
theorem declared_overwritten :
    ¬ Release.IsOf ⟨.string "serde", "9.9.9"⟩ "foo" ∧
    ∃ metadata manifest after,
      merge (remembering (webSettings.resolver (fun _ => pure (.error .incomplete))
          (steady serdeReply))) "0.0.1" "2021" (declaringTwice ["foo"]) "demo"
          (Path.ofString "demo.rs") ((World.untouched ()).keeping []) =
        ((metadata, .ok manifest), after) ∧
      manifest.dependencies.get? "serde" = some (.string "9.9.9") := by
  have hfoo : Crate.equivalent "serde" "foo" = false := by cbv
  have hnew : spelled? serdeTwice "foo" = none := by
    refine spelled?_eq_none_iff.mpr ?_
    intro entry hentry
    rcases List.mem_cons.mp hentry with rfl | hentry
    · exact hfoo
    · rw [List.mem_singleton.mp hentry]
      cbv
  refine ⟨?_, ?_⟩
  · rintro ⟨text, hname, hsame⟩
    rw [← RawText.ofString_inj.mp (Json.string.inj hname), hfoo] at hsame
    cases hsame
  · obtain ⟨kept, hdeclare, hkept⟩ := declare_of_declaredBy
      (basic "demo" (Path.ofString "demo.rs").toString "0.0.1" "2021")
      (declaredBy_declaringTwice ["foo"]) rfl
    have hmissing : missing (declaringTwice ["foo"]).inferred (keepFirst serdeTwice).1 = ["foo"] :=
      missing_singleton (by rw [spelled?_keepFirst]; exact hnew)
    have hlooked : (lookUpAll (remembering (webSettings.resolver
        (fun _ => pure (.error .incomplete)) (steady serdeReply))) ["foo"]
        ((World.untouched ()).keeping [])).1 = .ok [.ok (.string "serde", .string "9.9.9")] := by
      rw [lookUpAll_cons, remembering_resolve]
      dsimp only [Entries.get?, List.find?_nil, Option.map_none]
      rw [resolve_foo]
      dsimp only [readAnswer, dependencyName]
      rw [Value.ofRaw_ofString, Value.ofRaw_ofString]
      rfl
    have hcollect : collect [.ok (.string "serde", .string "9.9.9")] =
        .ok [(.string "serde", .string "9.9.9")] := collect_eq_ok_iff.mpr rfl
    rw [merge_eq, hdeclare]
    dsimp only
    rw [if_pos (showsPackage_declaringTwice ["foo"]), hkept, hmissing, hlooked]
    simp only [bind, Except.bind, hcollect, Except.map]
    refine ⟨_, _, _, rfl, ?_⟩
    show Entries.get? (Entries.put kept.dependencies "serde" (.string "9.9.9")) "serde" = _
    rw [Entries.get?_put, if_pos rfl]

end Manifest

end RustScript
