import RustScript.Proofs.Registry.Contract

/-!
# What a reply from the web says

A reply is an answer if its status reports success and its body describes a crate with a version; if
the status is 404 there is no such crate, and everything else cannot be used (`AnswersReply`). A
registry on the web takes every status below 400 for success and every name that a description gives
for a text, and it does not come to an answer about a name that no address can have in it, nor when
a body is nested too deeply. Otherwise it answers by this rule (`web_contract`).
-/

set_option autoImplicit false

namespace RustScript.Registry

variable {σ : Type}

/-! ## Descriptions -/

/-- The body of the reply is an object whose `crate` member is an object with these fields. -/
def Reply.HasCrate (room : Nat) (reply : Reply) (fields : List (RawText × Json)) : Prop :=
  ∃ members, Json.ofBytes room reply.body = .ok (.object members) ∧
    (Json.object members).field? "crate" = some (.object fields)

/-- Among the fields there is this text, which is not empty, under the key. -/
def Fills (fields : List (RawText × Json)) (key : String) (text : RawText) : Prop :=
  (Json.object fields).field? key = some (.string text) ∧ text ≠ []

/-- The version is the first one that the fields give: the best stable one, or else the newest, or
else the highest. -/
def FirstVersion (fields : List (RawText × Json)) (version : RawText) : Prop :=
  ∃ better key worse, ["max_stable_version", "newest_version", "max_version"] =
      better ++ key :: worse ∧
    Fills fields key version ∧ ∀ other ∈ better, ∀ text, ¬ Fills fields other text

/-- The body of the reply describes a crate and gives the version. -/
def Reply.Offers (room : Nat) (reply : Reply) (fields : List (RawText × Json))
    (version : RawText) : Prop :=
  reply.HasCrate room fields ∧ FirstVersion fields version

theorem description?_eq_some_iff {answer description : Json} :
    description? answer = some description ↔ ∃ members fields, answer = .object members ∧
      (Json.object members).field? "crate" = some (.object fields) ∧
        description = .object fields := by
  constructor
  · intro h
    unfold description? at h
    split at h
    · next fields hfield =>
        cases answer with
        | object members => exact ⟨members, fields, rfl, hfield, (Option.some.inj h).symm⟩
        | _ => cases hfield
    · cases h
  · rintro ⟨members, fields, rfl, hfield, rfl⟩
    unfold description?
    rw [hfield]

theorem filledText?_eq_some_iff {value : Json} {text : RawText} :
    filledText? value = some text ↔ value = .string text ∧ text ≠ [] := by
  cases value with
  | string other =>
      by_cases hempty : other = []
      · subst hempty
        refine iff_of_false nofun ?_
        rintro ⟨hsame, hne⟩
        exact hne (Json.string.inj hsame).symm
      · have hfilled : filledText? (.string other) = some other := by
          simp [filledText?, hempty]
        rw [hfilled, Option.some.injEq, Json.string.injEq]
        exact ⟨fun h => ⟨h, h ▸ hempty⟩, And.left⟩
  | _ => exact iff_of_false nofun nofun

theorem bind_filledText?_eq_some_iff {fields : List (RawText × Json)} {key : String}
    {text : RawText} :
    ((Json.object fields).field? key >>= filledText?) = some text ↔ Fills fields key text := by
  rw [Option.bind_eq_bind, Option.bind_eq_some_iff]
  unfold Fills
  constructor
  · rintro ⟨value, hvalue, htext⟩
    obtain ⟨rfl, hne⟩ := filledText?_eq_some_iff.mp htext
    exact ⟨hvalue, hne⟩
  · rintro ⟨hvalue, hne⟩
    exact ⟨_, hvalue, filledText?_eq_some_iff.mpr ⟨rfl, hne⟩⟩

/-- **The version that is picked is the first one.** -/
theorem pickVersion?_eq_some_iff {fields : List (RawText × Json)} {version : RawText} :
    pickVersion? (.object fields) = some version ↔ FirstVersion fields version := by
  unfold pickVersion?
  rw [List.findSome?_eq_some_iff]
  unfold FirstVersion versionKeys
  constructor
  · rintro ⟨better, key, worse, hkeys, hversion, hbetter⟩
    refine ⟨better, key, worse, hkeys, bind_filledText?_eq_some_iff.mp hversion, ?_⟩
    intro other hother text htext
    rw [← bind_filledText?_eq_some_iff, hbetter other hother] at htext
    cases htext
  · rintro ⟨better, key, worse, hkeys, hversion, hbetter⟩
    refine ⟨better, key, worse, hkeys, bind_filledText?_eq_some_iff.mpr hversion, ?_⟩
    intro other hother
    rw [Option.eq_none_iff_forall_ne_some]
    exact fun text htext => hbetter other hother text (bind_filledText?_eq_some_iff.mp htext)

theorem describes_iff {room : Nat} {reply : Reply} {description : Json} {version : RawText} :
    reply.Describes room description ∧ pickVersion? description = some version ↔
      ∃ fields, description = .object fields ∧ reply.status < 400 ∧
        reply.Offers room fields version := by
  constructor
  · rintro ⟨⟨hstatus, ⟨answer, hbody, hdescription⟩, -⟩, hversion⟩
    obtain ⟨members, fields, rfl, hfield, rfl⟩ := description?_eq_some_iff.mp hdescription
    exact ⟨fields, rfl, hstatus, ⟨members, hbody, hfield⟩, pickVersion?_eq_some_iff.mp hversion⟩
  · rintro ⟨fields, rfl, hstatus, ⟨members, hbody, hfield⟩, hversion⟩
    have hpicked := pickVersion?_eq_some_iff.mpr hversion
    refine ⟨⟨hstatus, ⟨_, hbody, ?_⟩, by rw [hpicked]; rfl⟩, hpicked⟩
    exact description?_eq_some_iff.mpr ⟨members, fields, rfl, hfield, rfl⟩

/-- **What is taken for an answer**: a reply with a status below 400 that offers a version. -/
theorem interpretReply_eq_ok_iff_offers {room : Nat} {name : String} {reply : Reply}
    {release : Release} :
    interpretReply room name (.ok reply) = .ok release ↔ reply.status < 400 ∧
      ∃ fields, reply.Offers room fields release.version ∧
        release.name = pickName (.object fields) name := by
  rw [interpretReply_eq_ok_iff]
  constructor
  · rintro ⟨description, version, hdescribes, hversion, rfl⟩
    obtain ⟨fields, rfl, hstatus, hoffers⟩ := describes_iff.mp ⟨hdescribes, hversion⟩
    exact ⟨hstatus, fields, hoffers, rfl⟩
  · rintro ⟨hstatus, fields, hoffers, hname⟩
    obtain ⟨hdescribes, hversion⟩ := describes_iff.mpr ⟨fields, rfl, hstatus, hoffers⟩
    refine ⟨_, _, hdescribes, hversion, ?_⟩
    rw [← hname]

/-- A reply offers at most one crate. -/
theorem Reply.Offers.unique {room : Nat} {reply : Reply} {fields others : List (RawText × Json)}
    {version other : RawText} (h : reply.Offers room fields version)
    (h' : reply.Offers room others other) :
    others = fields ∧ other = version := by
  obtain ⟨⟨members, hbody, hfield⟩, hversion⟩ := h
  obtain ⟨⟨members', hbody', hfield'⟩, hversion'⟩ := h'
  rw [hbody, Except.ok.injEq, Json.object.injEq] at hbody'
  obtain rfl := hbody'
  rw [hfield, Option.some.injEq, Json.object.injEq] at hfield'
  obtain rfl := hfield'
  rw [← pickVersion?_eq_some_iff] at hversion hversion'
  rw [hversion, Option.some.injEq] at hversion'
  exact ⟨rfl, hversion'.symm⟩

/-! ## The rule -/

/-- The status reports success. -/
def Reply.Succeeds (reply : Reply) : Prop := 200 ≤ reply.status ∧ reply.status < 300

/-- What came back is a reply that can be used. -/
def Usable (room : Nat) (outcome : Option (Except FetchError Reply)) : Prop :=
  ∃ reply fields version, outcome = some (.ok reply) ∧ reply.Succeeds ∧
    reply.Offers room fields version

/-- What came back says that there is no such crate. -/
def Missing (outcome : Option (Except FetchError Reply)) : Prop :=
  ∃ reply, outcome = some (.ok reply) ∧ reply.status = 404

/-- What a look-up of `name` should say, by what came back from the web; nothing comes back if there
is nothing that could be asked for. -/
structure AnswersReply (room : Nat) (name : String) (outcome : Option (Except FetchError Reply))
    (answer : Except LookupError Release) : Prop where
  /-- There is a release exactly if what came back can be used. -/
  accepted : (∃ release, answer = .ok release) ↔ Usable room outcome
  /-- The release has the version that the reply offers, and a text for a name. -/
  release : ∀ release, answer = .ok release → ∃ reply fields, outcome = some (.ok reply) ∧
    reply.Offers room fields release.version ∧ ∃ text, release.name = .string text
  /-- There is no such crate exactly if the status is 404. -/
  notFound : ∀ other, answer = .error (.notFound other) ↔ other = name ∧ Missing outcome
  /-- Everything else cannot be used. -/
  unusable : ∀ other, (∃ reason, answer = .error (.unusable other reason)) ↔
    other = name ∧ ¬ Usable room outcome ∧ ¬ Missing outcome

section

variable {room : Nat} {name : String} {outcome : Option (Except FetchError Reply)}

/-- A status cannot report success and say that nothing was found. -/
theorem not_missing_of_usable (h : Usable room outcome) : ¬ Missing outcome := by
  obtain ⟨reply, fields, version, rfl, hsucceeds, -⟩ := h
  rintro ⟨other, hother, hstatus⟩
  obtain rfl := Except.ok.inj (Option.some.inj hother)
  unfold Reply.Succeeds at hsucceeds
  omega

theorem answersReply_of_usable {reply : Reply} {fields : List (RawText × Json)}
    {version : RawText} (hsucceeds : reply.Succeeds) (hoffers : reply.Offers room fields version)
    (text : RawText) :
    AnswersReply room name (some (.ok reply)) (.ok ⟨.string text, version⟩) where
  accepted := iff_of_true ⟨_, rfl⟩ ⟨reply, fields, version, rfl, hsucceeds, hoffers⟩
  release := by
    intro release hrelease
    obtain rfl := Except.ok.inj hrelease
    exact ⟨reply, fields, rfl, hoffers, text, rfl⟩
  notFound := fun _ => iff_of_false nofun fun ⟨_, hmissing⟩ =>
    not_missing_of_usable ⟨reply, fields, version, rfl, hsucceeds, hoffers⟩ hmissing
  unusable := fun _ => iff_of_false (fun ⟨_, hanswer⟩ => by cases hanswer) fun ⟨_, hno, _⟩ =>
    hno ⟨reply, fields, version, rfl, hsucceeds, hoffers⟩

theorem answersReply_of_missing (h : Missing outcome) :
    AnswersReply room name outcome (.error (.notFound name)) where
  accepted := iff_of_false (fun ⟨_, hanswer⟩ => by cases hanswer) fun husable =>
    not_missing_of_usable husable h
  release := nofun
  notFound := by
    intro other
    constructor
    · intro hanswer
      obtain rfl := LookupError.notFound.inj (Except.error.inj hanswer)
      exact ⟨rfl, h⟩
    · rintro ⟨rfl, -⟩
      rfl
  unusable := fun _ => iff_of_false (fun ⟨_, hanswer⟩ => by cases hanswer) fun ⟨_, _, hno⟩ => hno h

theorem answersReply_of_neither (reason : String) (husable : ¬ Usable room outcome)
    (hmissing : ¬ Missing outcome) :
    AnswersReply room name outcome (.error (.unusable name reason)) where
  accepted := iff_of_false (fun ⟨_, hanswer⟩ => by cases hanswer) husable
  release := nofun
  notFound := fun _ => iff_of_false nofun fun ⟨_, hfound⟩ => hmissing hfound
  unusable := by
    intro other
    constructor
    · rintro ⟨other', hanswer⟩
      obtain ⟨rfl, -⟩ := LookupError.unusable.inj (Except.error.inj hanswer)
      exact ⟨rfl, husable, hmissing⟩
    · rintro ⟨rfl, -⟩
      exact ⟨reason, rfl⟩

/-- By the rule there is no error but those about the name. -/
theorem AnswersReply.isAnswer {error : LookupError}
    (h : AnswersReply room name outcome (.error error)) : error.isAnswer = true := by
  have husable : ¬ Usable room outcome := fun husable => by
    obtain ⟨release, hrelease⟩ := h.accepted.mpr husable
    cases hrelease
  by_cases hmissing : Missing outcome
  · have hanswer := (h.notFound name).mpr ⟨rfl, hmissing⟩
    rw [Except.error.inj hanswer]
    rfl
  · obtain ⟨reason, hanswer⟩ := (h.unusable name).mpr ⟨rfl, husable, hmissing⟩
    rw [Except.error.inj hanswer]
    rfl

end

/-! ## How replies are read -/

/-- There is room for what is nested in the body. -/
def Reply.Fits (room : Nat) (reply : Reply) : Prop :=
  ∀ kind, Json.ofBytes room reply.body ≠ .error (.tooDeep kind)

/-- A status that is an error is the answer, whatever the body is. -/
theorem interpretReply_of_refused (room : Nat) (name : String) {reply : Reply}
    (h : 400 ≤ reply.status) :
    interpretReply room name (.ok reply) =
      .error (if reply.status = 404 then .notFound name
        else .unusable name s!"HTTP {reply.status}") := by
  unfold interpretReply
  dsimp only
  rw [if_pos h]
  split <;> rfl

/-- Below the errors the body counts. The first check of it that fails gives the reason why there
is no release. -/
theorem interpretReply_of_passed (room : Nat) (name : String) {reply : Reply}
    (h : reply.status < 400) :
    (∃ release, interpretReply room name (.ok reply) = .ok release) ∨
    (∃ reason, reply.Fits room ∧
      interpretReply room name (.ok reply) = .error (.unusable name reason)) ∨
    ∃ kind, Json.ofBytes room reply.body = .error (.tooDeep kind) ∧
      interpretReply room name (.ok reply) = .error (.tooDeep kind) := by
  unfold interpretReply Reply.Fits
  dsimp only
  rw [if_neg (by omega), if_neg (by omega)]
  rcases Json.ofBytes room reply.body with (_ | kind) | answer
  · exact .inr (.inl ⟨_, nofun, rfl⟩)
  · exact .inr (.inr ⟨kind, rfl, rfl⟩)
  · dsimp only
    unfold interpretAnswer
    split
    · exact .inr (.inl ⟨_, nofun, rfl⟩)
    · split
      · exact .inr (.inl ⟨_, nofun, rfl⟩)
      · exact .inl ⟨_, rfl⟩

/-- The four things that can be said about a reply. -/
theorem interpretReply_cases (room : Nat) (name : String) (reply : Reply) :
    (reply.status = 404 ∧ interpretReply room name (.ok reply) = .error (.notFound name)) ∨
    (∃ fields version, reply.status < 400 ∧ reply.Offers room fields version ∧
      interpretReply room name (.ok reply) = .ok ⟨pickName (.object fields) name, version⟩) ∨
    (reply.status ≠ 404 ∧
      (reply.status < 400 →
        reply.Fits room ∧ ∀ fields version, ¬ reply.Offers room fields version) ∧
      ∃ reason, interpretReply room name (.ok reply) = .error (.unusable name reason)) ∨
    (reply.status < 400 ∧ ¬ reply.Fits room ∧
      ∃ kind, interpretReply room name (.ok reply) = .error (.tooDeep kind)) := by
  by_cases hstatus : reply.status < 400
  · obtain ⟨release, hread⟩ | ⟨reason, hfits, hread⟩ | ⟨kind, hdeep, hread⟩ :=
      interpretReply_of_passed room name hstatus
    · obtain ⟨-, fields, hoffers, hname⟩ := interpretReply_eq_ok_iff_offers.mp hread
      refine .inr (.inl ⟨fields, release.version, hstatus, hoffers, ?_⟩)
      rw [hread, ← hname]
    · refine .inr (.inr (.inl ⟨by omega, fun _ => ⟨hfits, fun fields version hoffers => ?_⟩,
        reason, hread⟩))
      have hreleased : interpretReply room name (.ok reply) =
          .ok ⟨pickName (.object fields) name, version⟩ :=
        interpretReply_eq_ok_iff_offers.mpr ⟨hstatus, fields, hoffers, rfl⟩
      rw [hreleased] at hread
      cases hread
    · exact .inr (.inr (.inr ⟨hstatus, fun hfits => hfits kind hdeep, kind, hread⟩))
  · have hread := interpretReply_of_refused room name (Int.not_lt.mp hstatus)
    by_cases hmissing : reply.status = 404
    · exact .inl ⟨hmissing, by rw [hread, if_pos hmissing]⟩
    · refine .inr (.inr (.inl ⟨hmissing, fun h => absurd h hstatus, s!"HTTP {reply.status}", ?_⟩))
      rw [hread, if_neg hmissing]

/-- There is room for the body, and what the reply is taken to offer comes with success and under a
text, if it names the crate. -/
def Reply.Regular (room : Nat) (reply : Reply) : Prop :=
  reply.status < 400 → reply.Fits room ∧
    ∀ fields version, reply.Offers room fields version → reply.Succeeds ∧
      ∀ given, givenName? (.object fields) = some given → ∃ text, given = .string text

theorem exists_pickName {fields : List (RawText × Json)}
    (h : ∀ given, givenName? (.object fields) = some given → ∃ text, given = .string text)
    (name : String) : ∃ text, pickName (.object fields) name = .string text := by
  rw [pickName_eq]
  cases hgiven : givenName? (.object fields) with
  | none => exact ⟨name, rfl⟩
  | some given => exact h given hgiven

/-- **A reply is read by the rule exactly if it is a regular one.** -/
theorem answersReply_interpretReply_iff (room : Nat) (name : String) (reply : Reply) :
    AnswersReply room name (some (.ok reply)) (interpretReply room name (.ok reply)) ↔
      reply.Regular room := by
  constructor
  · intro h hstatus
    refine ⟨fun kind hdeep => ?_, fun fields version hoffers => ?_⟩
    · have hread : interpretReply room name (.ok reply) = .error (.tooDeep kind) := by
        unfold interpretReply
        dsimp only
        rw [if_neg (by omega), if_neg (by omega), hdeep]
      rw [hread] at h
      exact absurd h.isAnswer Bool.false_ne_true
    · have hrelease : interpretReply room name (.ok reply) =
          .ok ⟨pickName (.object fields) name, version⟩ :=
        interpretReply_eq_ok_iff_offers.mpr ⟨hstatus, fields, hoffers, rfl⟩
      constructor
      · obtain ⟨other, _, _, hother, hsucceeds, -⟩ := h.accepted.mp ⟨_, hrelease⟩
        rwa [Except.ok.inj (Option.some.inj hother)]
      · intro given hgiven
        obtain ⟨_, _, -, -, text, htext⟩ := h.release _ hrelease
        refine ⟨text, ?_⟩
        rw [← htext, pickName_eq, hgiven, Option.getD_some]
  · intro hregular
    obtain ⟨hstatus, hread⟩ | ⟨fields, version, hstatus, hoffers, hread⟩ |
      ⟨hstatus, hnone, reason, hread⟩ | ⟨hstatus, hdeep, -⟩ := interpretReply_cases room name reply
    · rw [hread]
      exact answersReply_of_missing ⟨reply, rfl, hstatus⟩
    · obtain ⟨hsucceeds, htexts⟩ := (hregular hstatus).2 fields version hoffers
      obtain ⟨text, htext⟩ := exists_pickName htexts name
      rw [hread, htext]
      exact answersReply_of_usable hsucceeds hoffers text
    · rw [hread]
      refine answersReply_of_neither reason ?_ ?_
      · rintro ⟨other, fields, version, hother, hsucceeds, hoffers⟩
        obtain rfl := Except.ok.inj (Option.some.inj hother)
        unfold Reply.Succeeds at hsucceeds
        exact (hnone (by omega)).2 fields version hoffers
      · rintro ⟨other, hother, hstatus'⟩
        obtain rfl := Except.ok.inj (Option.some.inj hother)
        exact hstatus hstatus'
    · exact absurd (hregular hstatus).1 hdeep

/-- What comes back for the crate `name`, if an address can have it in it. -/
def Client.reply? (client : Client σ) (base name : String) (world : World σ) :
    Option (Except FetchError Reply) :=
  (Address.ofText? (dropSlashes base ++ "/" ++ name).toList).map fun address =>
    (client.fetch address.requested world).1

/-- A release from the web, by the reply that it comes from. -/
theorem browsing_eq_ok_iff_offers {client : Client σ} {base name : String} {world : World σ}
    {release : Release} :
    ((browsing client base).resolve name world).1 = .ok release ↔
      ∃ address reply fields, crateAddress? base name = some address ∧
        (client.fetch address.requested world).1 = .ok reply ∧ reply.status < 400 ∧
        reply.Offers client.room fields release.version ∧
        release.name = pickName (.object fields) name := by
  rw [browsing_resolve_eq_ok_iff]
  constructor
  · rintro ⟨address, reply, haddress, hreply, hread⟩
    obtain ⟨hstatus, fields, hoffers, hname⟩ := interpretReply_eq_ok_iff_offers.mp hread
    exact ⟨address, reply, fields, haddress, hreply, hstatus, hoffers, hname⟩
  · rintro ⟨address, reply, fields, haddress, hreply, hstatus, hoffers, hname⟩
    exact ⟨address, reply, haddress, hreply,
      interpretReply_eq_ok_iff_offers.mpr ⟨hstatus, fields, hoffers, hname⟩⟩

/-- There is an address for the name, the connection is open, and what comes back is no reply at all
or a regular one from a server. -/
def Client.Fair (client : Client σ) (base name : String) (world : World σ) : Prop :=
  ∃ address, Address.ofText? (dropSlashes base ++ "/" ++ name).toList = some address ∧
    (client.fetch address.requested world).1 ≠ .error .closed ∧
    ∀ reply, (client.fetch address.requested world).1 = .ok reply →
      address.isAbsolute = true ∧ reply.Regular client.room

theorem answersReply_browsing_iff (client : Client σ) (base name : String) (world : World σ) :
    AnswersReply client.room name (client.reply? base name world)
        ((browsing client base).resolve name world).1 ↔ client.Fair base name world := by
  rw [browsing_resolve]
  unfold Client.reply? Client.Fair
  cases haddress : Address.ofText? (dropSlashes base ++ "/" ++ name).toList with
  | none =>
      refine iff_of_false (fun h => ?_) nofun
      exact absurd h.isAnswer Bool.false_ne_true
  | some address =>
      rw [Option.map_some]
      dsimp only
      cases hfetch : (client.fetch address.requested world).1 with
      | error error =>
          cases error with
          | closed =>
              refine iff_of_false (fun h => ?_) ?_
              · exact absurd h.isAnswer Bool.false_ne_true
              · rintro ⟨other, hother, hopen, -⟩
                obtain rfl := Option.some.inj hother
                exact hopen hfetch
          | failed reason =>
              refine iff_of_true ?_ ⟨address, rfl, by rw [hfetch]; nofun, fun reply hreply => ?_⟩
              · exact answersReply_of_neither _ nofun nofun
              · rw [hfetch] at hreply
                cases hreply
      | ok reply =>
          dsimp only
          by_cases habsolute : address.isAbsolute = true
          · rw [if_pos habsolute, answersReply_interpretReply_iff]
            constructor
            · intro hregular
              refine ⟨address, rfl, by rw [hfetch]; nofun, fun other hother => ?_⟩
              rw [hfetch] at hother
              rw [← Except.ok.inj hother]
              exact ⟨habsolute, hregular⟩
            · rintro ⟨other, hother, -, hreplies⟩
              obtain rfl := Option.some.inj hother
              exact (hreplies reply hfetch).2
          · rw [if_neg habsolute]
            refine iff_of_false (fun h => ?_) ?_
            · exact absurd h.isAnswer Bool.false_ne_true
            · rintro ⟨other, hother, -, hreplies⟩
              obtain rfl := Option.some.inj hother
              exact habsolute (hreplies reply hfetch).1

/-- **What a registry on the web answers.** It gives a release exactly if a reply with a status below
400 offers a version, under the name that the reply gives or else the one that was asked for. It
follows the rule exactly if it is asked and answered fairly. -/
theorem web_contract (client : Client σ) (base name : String) (world : World σ) :
    (∀ release, ((browsing client base).resolve name world).1 = .ok release ↔
      ∃ address reply fields, crateAddress? base name = some address ∧
        (client.fetch address.requested world).1 = .ok reply ∧ reply.status < 400 ∧
        reply.Offers client.room fields release.version ∧
        release.name = pickName (.object fields) name) ∧
    (AnswersReply client.room name (client.reply? base name world)
        ((browsing client base).resolve name world).1 ↔ client.Fair base name world) :=
  ⟨fun _ => browsing_eq_ok_iff_offers, answersReply_browsing_iff client base name world⟩

/-! ## Replies that are not regular -/

/-- A reply with a body of ASCII characters. -/
def asciiReply (status : Int) (text : String) : Reply :=
  ⟨status, text.toList.map fun c => c.toNat.toUInt8⟩

/-- A reply that points to another place and describes a crate. -/
def redirect : Reply := asciiReply 301 "\x7b\"crate\":\x7b\"max_version\":\"1\"\x7d\x7d"

/-- A reply that names a crate by a number. -/
def numberedReply : Reply :=
  asciiReply 200 "\x7b\"crate\":\x7b\"name\":7,\"max_version\":\"1\"\x7d\x7d"

/-- A registry that sends the same reply to every request. -/
def mirror (reply : Reply) : Client Unit := ⟨fun _ => pure (.ok reply), pure (), 900⟩

theorem ofBytes_redirect : Json.ofBytes 900 redirect.body =
    .ok (.object [(.ofString "crate", .object [(.ofString "max_version", .string "1")])]) := by
  have htext : Json.text? redirect.body =
      some (.ofString "\x7b\"crate\":\x7b\"max_version\":\"1\"\x7d\x7d") := by
    decide +kernel
  unfold Json.ofBytes
  rw [htext]
  cbv

theorem ofBytes_numberedReply : Json.ofBytes 900 numberedReply.body =
    .ok (.object [(.ofString "crate", .object [(.ofString "name", .integer 7),
      (.ofString "max_version", .string "1")])]) := by
  have htext : Json.text? numberedReply.body =
      some (.ofString "\x7b\"crate\":\x7b\"name\":7,\"max_version\":\"1\"\x7d\x7d") := by
    decide +kernel
  unfold Json.ofBytes
  rw [htext]
  cbv

theorem offers_redirect :
    redirect.Offers 900 [(.ofString "max_version", .string "1")] (.ofString "1") :=
  ⟨⟨_, ofBytes_redirect, rfl⟩, pickVersion?_eq_some_iff.mp (by cbv)⟩

theorem offers_numberedReply :
    numberedReply.Offers 900 [(.ofString "name", .integer 7), (.ofString "max_version", .string "1")]
      (.ofString "1") :=
  ⟨⟨_, ofBytes_numberedReply, rfl⟩, pickVersion?_eq_some_iff.mp (by cbv)⟩

/-- The rule is broken by a redirection that describes a crate, by a name that is a number, and by
a name that no address can have in it. -/
theorem redirect_accepted :
    ¬ AnswersReply 900 "serde" ((mirror redirect).reply? defaultAddress "serde" (World.untouched ()))
        ((browsing (mirror redirect) defaultAddress).resolve "serde" (World.untouched ())).1 ∧
    ¬ AnswersReply 900 "serde"
        ((mirror numberedReply).reply? defaultAddress "serde" (World.untouched ()))
        ((browsing (mirror numberedReply) defaultAddress).resolve "serde" (World.untouched ())).1 ∧
    ¬ AnswersReply 900 "a\nb" ((mirror redirect).reply? defaultAddress "a\nb" (World.untouched ()))
        ((browsing (mirror redirect) defaultAddress).resolve "a\nb" (World.untouched ())).1 := by
  refine ⟨?_, ?_, ?_⟩
  · refine mt (answersReply_browsing_iff (mirror redirect) _ _ _).mp ?_
    rintro ⟨address, -, -, hreplies⟩
    have hsucceeds := (((hreplies redirect rfl).2 (by decide)).2 _ _ offers_redirect).1
    exact absurd hsucceeds.2 (by decide)
  · refine mt (answersReply_browsing_iff (mirror numberedReply) _ _ _).mp ?_
    rintro ⟨address, -, -, hreplies⟩
    have htext := (((hreplies numberedReply rfl).2 (by decide)).2 _ _ offers_numberedReply).2
    obtain ⟨text, hseven⟩ := htext (.integer 7) (by cbv)
    cases hseven
  · refine mt (answersReply_browsing_iff (mirror redirect) _ _ _).mp ?_
    rintro ⟨address, haddress, -⟩
    have hnone : Address.ofText? (dropSlashes defaultAddress ++ "/" ++ "a\nb").toList = none := by
      cbv
    rw [hnone] at haddress
    cases haddress

end RustScript.Registry
