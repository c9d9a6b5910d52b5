import RustScript.Proofs.Source.Calm

/-!
# What a scan passes over

A scan for one kind of declaration passes over calm texts and over the declarations of the other
kinds, whatever their lines. `Reader` says what is needed for this of the function that reads a
declaration at the start of a line.
-/

set_option autoImplicit false

namespace RustScript.Source

open RustScript.Rust RustScript.Text

/-! ## Lines -/

theorem nextLine_append {line : List Char} (rest : List Char) (h : '\n' ∉ line) :
    nextLine (line ++ rest) = nextLine rest := by
  induction line with
  | nil => rfl
  | cons c line ih =>
      have hc : c ≠ '\n' := fun hc => h (hc ▸ List.mem_cons_self)
      rw [List.cons_append, nextLine]
      · exact ih fun hmem => h (List.mem_cons_of_mem c hmem)
      · exact hc

theorem afterLine_append {line : List Char} (rest : List Char) (h : '\n' ∉ line) :
    afterLine (line ++ rest) = afterLine rest := by
  unfold afterLine
  rw [nextLine_append rest h]

theorem afterLine_line {line : List Char} (rest : List Char) (h : '\n' ∉ line) :
    afterLine (line ++ '\n' :: rest) = rest := by
  rw [afterLine_append _ h]
  rfl

section

variable {α : Type} {read : List Char → Option (α × List Char)}

theorem atLineStarts_nil (hnil : read [] = none) : atLineStarts read [] = [] := by
  rw [atLineStarts, hnil]
  rfl

/-- Where nothing is read the scan goes on with the next line. -/
theorem atLineStarts_of_none (hnil : read [] = none) {cs : List Char} (h : read cs = none) :
    atLineStarts read cs = atLineStarts read (afterLine cs) := by
  rw [atLineStarts]
  simp only [h, afterLine]
  split
  · next after hafter => rw [hafter, Option.getD_some]
  · next hafter => rw [hafter, Option.getD_none, atLineStarts_nil hnil]

/-- Behind a declaration the scan goes on with the next line. -/
theorem atLineStarts_of_some (hnil : read [] = none) {cs rest : List Char} {found : α}
    (h : read cs = some (found, rest)) (hlength : rest.length ≤ cs.length) :
    atLineStarts read cs = found :: atLineStarts read (afterLine rest) := by
  rw [atLineStarts]
  simp only [h, afterLine]
  split
  · next after hafter =>
      have hshort : after.length < cs.length :=
        calc after.length < rest.length := length_nextLine_lt hafter
          _ ≤ cs.length := hlength
      rw [dif_pos hshort, hafter, Option.getD_some]
  · next hafter => rw [hafter, Option.getD_none, atLineStarts_nil hnil]

/-! ## Passing over lines -/

/-- At the start of `text`, with `after` behind it, nothing is read, or something spurious that
does not end behind the text. -/
def Passes (read : List Char → Option (α × List Char)) (spurious : α → Prop)
    (after text : List Char) : Prop :=
  read (text ++ after) = none ∨
    ∃ found rest, spurious found ∧ rest <:+ text ∧
      read (text ++ after) = some (found, rest ++ after)

/-- The scan of `text`, with `after` behind it, finds nothing but spurious names before it reaches
the next line of `after`. -/
def Skips (spurious : α → Prop) (found later : List α) : Prop :=
  ∃ extra, (∀ x ∈ extra, spurious x) ∧ found = extra ++ later

/-- If every start of a line in the text is passed over, so are its lines. -/
theorem skips_lines {spurious : α → Prop} {text after : List Char} (hnil : read [] = none)
    (h : ∀ front line, text = front ++ '\n' :: line → Passes read spurious after line) :
    Skips spurious (atLineStarts read (afterLine (text ++ after)))
      (atLineStarts read (afterLine after)) := by
  -- a spurious name may take several lines, so the induction is on the length of the text
  induction hlength : text.length using Nat.strongRecOn generalizing text with
  | ind n ih =>
      by_cases hfeed : '\n' ∈ text
      · obtain ⟨front, line, rfl, hfront⟩ := List.eq_append_cons_of_mem hfeed
        have hline : (front ++ '\n' :: line) ++ after = front ++ '\n' :: (line ++ after) := by
          simp only [List.append_assoc, List.cons_append]
        rw [hline, afterLine_line _ hfront]
        rcases h front line rfl with hnone | ⟨found, rest, hspurious, ⟨cut, hcut⟩, hsome⟩
        · rw [atLineStarts_of_none hnil hnone]
          refine ih line.length ?_ (fun front' line' hsplit => ?_) rfl
          · simp only [← hlength, List.length_append, List.length_cons]
            omega
          · refine h (front ++ '\n' :: front') line' ?_
            rw [hsplit, List.append_assoc, List.cons_append]
        · have hrest : rest.length ≤ line.length := by
            rw [← hcut, List.length_append]
            omega
          have hshort : (rest ++ after).length ≤ (line ++ after).length := by
            simp only [List.length_append]
            omega
          obtain ⟨extra, hextra, hlater⟩ := ih rest.length (by
              simp only [← hlength, List.length_append, List.length_cons]
              omega) (fun front' line' hsplit => h (front ++ '\n' :: (cut ++ front')) line' (by
              rw [← hcut, hsplit, List.append_assoc, List.cons_append, List.append_assoc])) rfl
          refine ⟨found :: extra, List.forall_mem_cons.mpr ⟨hspurious, hextra⟩, ?_⟩
          rw [atLineStarts_of_some hnil hsome hshort, hlater, List.cons_append]
      · rw [afterLine_append _ hfeed]
        exact ⟨[], fun _ hx => absurd hx List.not_mem_nil, rfl⟩

/-! ## Readers of declarations -/

/-- What `read` does at the start of a text: blanks and a visibility are passed over, a mark or a
word that is not `hot` ends the attempt, and a union that is cast may be taken for a type. -/
structure Reader (read : List Char → Option (α × List Char)) (hot : List String)
    (spurious : α → Prop) : Prop where
  watched : Watched hot
  pub : "pub" ∈ hot
  nil : read [] = none
  blank : ∀ c cs, isBlank c → read (c :: cs) = read cs
  mark : ∀ c cs, isBlank c = false → isAsciiWord c = false → read (c :: cs) = none
  word : ∀ (w : String) cs, IsWord w.toList → w ∉ hot → Breaks cs → read (w.toList ++ cs) = none
  union : "union" ∈ hot → ∀ text after, Follows after text →
    Passes read spurious after ("union".toList ++ text)
  visible : ∀ vis (w : String) cs, Visibility Scope vis → IsWord w.toList → w ≠ "pub" →
    Breaks cs → read (vis ++ (w.toList ++ cs)) = read (w.toList ++ cs)

variable {hot : List String} {spurious : α → Prop} {after : List Char}

theorem Reader.blank_append (hread : Reader read hot spurious) {blanks : List Char}
    (h : allBlank blanks) (cs : List Char) : read (blanks ++ cs) = read cs := by
  induction blanks with
  | nil => rfl
  | cons c rest ih =>
      obtain ⟨hc, hrest⟩ := allBlank_cons.mp h
      rw [List.cons_append, hread.blank c _ hc]
      exact ih hrest

/-- A calm text is passed over. -/
theorem Reader.passes (hread : Reader read hot spurious) {text : List Char}
    (h : Calm hot after text) : Passes read spurious after text := by
  induction h with
  | stop hblank hword => exact Or.inl (hread.mark _ _ hblank hword)
  | last hword hfree hbreaks => exact Or.inl (hread.word _ _ hword hfree hbreaks)
  | @mark c text hword _ ih =>
      cases hblank : isBlank c with
      | false => exact Or.inl (hread.mark _ _ hblank hword)
      | true =>
          unfold Passes
          rw [List.cons_append, hread.blank c _ hblank]
          rcases ih with hnone | ⟨found, rest, hspurious, hsuffix, hsome⟩
          · exact Or.inl hnone
          · exact Or.inr ⟨found, rest, hspurious, hsuffix.trans (List.suffix_cons c text), hsome⟩
  | @word w text hword hfree hbreaks hcalm _ =>
      refine Or.inl ?_
      rw [List.append_assoc]
      exact hread.word w _ hword hfree (hcalm.breaks_append hbreaks)
  | @union text hfollows hbreaks hcalm _ =>
      by_cases hunion : "union" ∈ hot
      · exact hread.union hunion text after hfollows
      · refine Or.inl ?_
        rw [List.append_assoc]
        exact hread.word _ _ (isWord_written (by decide)) hunion (hcalm.breaks_append hbreaks)

/-- The lines of a calm text are passed over. -/
theorem Reader.skips_calm (hread : Reader read hot spurious) {text : List Char}
    (h : Calm hot after text) :
    Skips spurious (atLineStarts read (afterLine (text ++ after)))
      (atLineStarts read (afterLine after)) :=
  skips_lines hread.nil fun _ _ hsplit => hread.passes (hsplit ▸ h).behind

/-- A declaration of another kind is passed over, with all its lines. -/
theorem Reader.skips (hread : Reader read hot spurious) {d : Declaration} {chunk : List Char}
    (h : Writes d chunk after) (hforeign : ∀ w ∈ d.keywords, w ∉ hot) :
    Skips spurious (atLineStarts read (chunk ++ after)) (atLineStarts read (afterLine after)) := by
  cases h with
  | @front lead vis body _ hlead hvis hbody =>
      have hcalm := hbody.calm hread.watched hforeign
      have hnone : ∀ blanks, allBlank blanks → read (blanks ++ (vis ++ body) ++ after) = none := by
        intro blanks hblanks
        obtain ⟨w, rest, rfl, hkeyword, hword, hbreaks⟩ := hbody.front
        have hfree : w ∉ hot := hforeign w hkeyword
        have hpub : w ≠ "pub" := fun heq => hfree (heq ▸ hread.pub)
        simp only [List.append_assoc]
        rw [hread.blank_append hblanks, hread.visible vis w _ hvis hword hpub (hbreaks after),
          hread.word w _ hword hfree (hbreaks after)]
      rw [atLineStarts_of_none hread.nil (hnone lead hlead)]
      refine skips_lines hread.nil fun front line hsplit => ?_
      -- the line begins behind the blanks in front or still among them
      rcases List.append_eq_append_iff.mp hsplit with ⟨front', -, hbehind⟩ | ⟨lead', hlead', hrest⟩
      · exact hread.passes (hvis.behind hread.watched hcalm hbehind)
      · cases lead' with
        | nil =>
            have hbehind : vis ++ body = [] ++ '\n' :: line := hrest.symm
            exact hread.passes (hvis.behind hread.watched hcalm hbehind)
        | cons c blanks =>
            obtain ⟨-, rfl⟩ := List.cons.inj hrest
            rw [hlead'] at hlead
            have hblanks : allBlank (c :: blanks) := (allBlank_append.mp hlead).2
            exact Or.inl (hnone blanks (allBlank_cons.mp hblanks).2)

end

end RustScript.Source
