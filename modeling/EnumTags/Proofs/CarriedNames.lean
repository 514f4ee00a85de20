import EnumTags.Proofs.Compaction
import EnumTags.Proofs.EnumEmission
import EnumTags.Proofs.Suggestions

/-!
# Names that are carried as texts

Between the tokens that are read and those that are written, a name is only a text: in the outline,
in the declarations to be made, and in whatever is shown. `Ident.revive` turns it into an identifier
again. It takes any text for that, with blanks and comments around the name, and for a keyword it
tries the raw form. The second try puts the mark in front of the text, so it succeeds only where the
text begins with the keyword; and it cannot succeed twice, since a raw name is read as it is.

## Main definitions

* `Ident.SpelledBy i s`: the text spells the name, or the keyword of which it is the raw form.
* `Ident.NamesInEnum`: an enum or one of its variants can have this name.
* `EnumItem.NamesComeBack`: all names of an enum come back from where they are carried.

## Main results

* `Ident.revive_eq_ok_iff`: which texts are turned into which names.
* `Ident.revive_roundTrip`: a name that was turned into a text and back is the same name.
-/

namespace EnumTags

/-! ## One word and no other token -/

namespace Lexer

/-- A word ends where a piece without tokens begins. -/
theorem endsWord_of_step {s rest : Text} (h : step s = some ([], rest)) : endsWord s = true := by
  cases s with
  | nil => cases h
  | cons c s =>
      by_cases hseparator : Trivia.isSeparator c = true
      · have hword := Text.not_isWordChar_of_isSeparator hseparator
        have hquotes : c ≠ '"' ∧ c ≠ '\'' ∧ c ≠ '#' := by
          refine ⟨?_, ?_, ?_⟩ <;> rintro rfl <;> exact absurd hseparator (by decide)
        simp [endsWord, unquoted, hword, hquotes]
      · by_cases hcomment : Trivia.startsComment (c :: s) = true
        · have hslash : c = '/' := by
            rw [Trivia.startsComment.eq_def] at hcomment
            split at hcomment <;> simp_all
          subst hslash
          rfl
        · have hnone := comment?_of_not_startsComment ((Bool.not_eq_true _).mp hcomment)
          rw [step, if_neg hseparator, hnone] at h
          simp only at h
          split at h
          · cases h
          · split at h
            · cases h
            · obtain ⟨⟨t, r⟩, -, heq⟩ := Option.map_eq_some_iff.mp h
              cases heq

theorem Lexes.endsWord {s : Text} (h : Lexes s []) : endsWord s = true := by
  generalize hts : ([] : Tokens) = ts at h
  cases h with
  | nil => rfl
  | cons hstep _ =>
      obtain ⟨rfl, -⟩ := List.append_eq_nil_iff.mp hts.symm
      exact endsWord_of_step hstep

/-- Where a word begins, a single identifier takes that word, and the rest holds no token. -/
theorem Lexes.exists_anyIdent? {c : Char} {s : Text} {i : Ident}
    (hc : Text.isWordStart c = true) (h : Lexes (c :: s) [.ident i]) :
    ∃ rest, anyIdent? (c :: s) = some (i, rest) ∧ Lexes rest [] := by
  generalize hts : [Token.ident i] = ts at h
  cases h with
  | cons hstep hrest =>
      rw [step_of_isWordStart hc] at hstep
      obtain ⟨⟨t, r⟩, hleaf, heq⟩ := Option.map_eq_some_iff.mp hstep
      obtain ⟨rfl, rfl⟩ := Prod.mk.inj heq
      obtain ⟨rfl, rfl⟩ := List.cons.inj hts
      refine ⟨r, ?_, hrest⟩
      rw [leaf?, punct?_of_isWordStart hc] at hleaf
      split at hleaf
      · cases hleaf
      · obtain ⟨⟨j, r'⟩, hident, heq⟩ := Option.map_eq_some_iff.mp hleaf
        cases heq
        rw [ident?] at hident
        split at hident
        · cases hident
        · exact hident

end Lexer

theorem IsSource.unique {s : Text} {ts us : Tokens} (h : IsSource s ts) (h' : IsSource s us) :
    ts = us := by
  obtain ⟨ls, hls, rfl⟩ := h
  obtain ⟨ls', hls', rfl⟩ := h'
  rw [hls] at hls'
  rw [Option.some.inj hls']

theorem IsSource.exists_anyIdent? {c : Char} {s : Text} {i : Ident}
    (hc : Text.isWordStart c = true) (h : IsSource (c :: s) [.ident i]) :
    ∃ rest, Lexer.anyIdent? (c :: s) = some (i, rest) ∧ Lexer.Lexes rest [] := by
  obtain ⟨ls, hls, htokens⟩ := h
  obtain ⟨hlexes, -⟩ := lexes_of_lex? hls
  rw [Lexer.passMark_of_isWordStart hc, htokens] at hlexes
  exact hlexes.exists_anyIdent? hc

/-- What stands behind the name makes no token, and then any name may stand before it. -/
theorem isSource_text_append_iff (i : Ident) (rest : Text) :
    IsSource (i.text ++ rest) [.ident i] ↔ Lexer.Lexes rest [] := by
  constructor
  · intro h
    obtain ⟨c, name, htext, hc⟩ := i.exists_text_eq_cons
    rw [htext, List.cons_append] at h
    obtain ⟨rest', hident, hrest⟩ := h.exists_anyIdent? hc
    have happend := Lexer.eq_append_of_anyIdent? hident
    rw [← List.cons_append, ← htext, List.append_cancel_left_eq] at happend
    rwa [happend]
  · intro h
    exact ((Lexer.scans_of_lexes h).ident i h.endsWord).exists_lex? rfl

/-! ## Texts turned into names -/

namespace Ident

/-- The text spells the name: it is source for the name alone, or it begins with a keyword and is
source for that alone, and the name is the raw form of it. -/
inductive SpelledBy (i : Ident) (s : Text) : Prop
  | asIs : IsSource s [.ident i] → i.isName = true → SpelledBy i s
  | keyword (j : Ident) : IsSource s [.ident j] → j.isName = false → j.text <+: s →
      i.raw = true → i.name = j.name → SpelledBy i s

theorem ofText?_eq_some_iff {s : Text} {i : Ident} :
    ofText? s = some i ↔ IsSource s [.ident i] ∧ i.isName = true := by
  constructor
  · intro h
    rw [ofText?] at h
    split at h
    · rename_i j span hlex
      split at h
      · rename_i hname
        obtain rfl := Option.some.inj h
        exact ⟨⟨_, hlex, rfl⟩, hname⟩
      · cases h
    · cases h
  · rintro ⟨⟨ls, hls, htokens⟩, hname⟩
    obtain ⟨⟨t, span⟩, rfl, rfl⟩ := List.map_eq_singleton_iff.mp htokens
    simp only [ofText?, hls, hname, if_true]

/-- With the raw mark in front, the text begins with the word that the mark makes a name. -/
theorem exists_of_isSource_raw {s : Text} {i : Ident}
    (h : IsSource ('r' :: '#' :: s) [.ident i]) :
    i.raw = true ∧ ∃ rest, s = i.name ++ rest ∧ Lexer.Lexes rest [] := by
  obtain ⟨rest, hident, hrest⟩ := h.exists_anyIdent? (by decide)
  obtain ⟨hraw, hs⟩ := Lexer.eq_append_of_wordIdent? hident
  exact ⟨hraw, rest, hs, hrest⟩

theorem raw_of_not_isName {i : Ident} (h : i.isName = false) : i.raw = false :=
  (Bool.or_eq_false_iff.mp h).1

theorem SpelledBy.isName {i : Ident} {s : Text} (h : i.SpelledBy s) : i.isName = true := by
  cases h with
  | asIs _ hname => exact hname
  | keyword j _ _ _ hraw _ => rw [Ident.isName, hraw, Bool.true_or]

theorem spelledBy_of_revive? {s : Text} {i : Ident} (h : revive? s = some i) : i.SpelledBy s := by
  rw [revive?] at h
  split at h
  · rename_i j hj
    obtain rfl := Option.some.inj h
    obtain ⟨hsource, hname⟩ := ofText?_eq_some_iff.mp hj
    exact .asIs hsource hname
  · rename_i hnone
    obtain ⟨hraw, rest, rfl, hrest⟩ := exists_of_isSource_raw (ofText?_eq_some_iff.mp h).1
    have hspelled : isSpelling false i.name = true := by simp [isSpelling, i.isWord_name]
    have hsource : IsSource (i.name ++ rest) [.ident ⟨false, i.name, hspelled⟩] :=
      (isSource_text_append_iff ⟨false, i.name, hspelled⟩ rest).mpr hrest
    refine .keyword ⟨false, i.name, hspelled⟩ hsource ?_ (List.prefix_append _ _) hraw rfl
    -- a name would have been read at the first try
    by_contra hname
    rw [ofText?_eq_some_iff.mpr ⟨hsource, (Bool.not_eq_false _).mp hname⟩] at hnone
    cases hnone

theorem SpelledBy.revive? {i : Ident} {s : Text} (h : i.SpelledBy s) :
    Ident.revive? s = some i := by
  have hname := h.isName
  cases h with
  | asIs hsource _ => rw [Ident.revive?, ofText?_eq_some_iff.mpr ⟨hsource, hname⟩]
  | keyword j hsource hkeyword hbegins hraw hsame =>
      have hnone : ofText? s = none := by
        by_contra hsome
        obtain ⟨k, hk⟩ := Option.ne_none_iff_exists'.mp hsome
        obtain ⟨hk, hnamed⟩ := ofText?_eq_some_iff.mp hk
        cases hk.unique hsource
        rw [hkeyword] at hnamed
        cases hnamed
      obtain ⟨rest, rfl⟩ := hbegins
      have hrest := (isSource_text_append_iff j rest).mp hsource
      have hmark : 'r' :: '#' :: (j.text ++ rest) = i.text ++ rest := by
        simp only [text, hraw, raw_of_not_isName hkeyword, hsame, if_true, Bool.false_eq_true,
          if_false, List.cons_append]
      rw [Ident.revive?, hnone, hmark]
      exact ofText?_eq_some_iff.mpr ⟨(isSource_text_append_iff i rest).mpr hrest, hname⟩

/-- **Which texts are turned into which names.** -/
theorem revive_eq_ok_iff {s : Text} {i : Ident} : revive s = .ok i ↔ i.SpelledBy s := by
  have hrevive : revive s = .ok i ↔ revive? s = some i := by
    rw [revive]
    cases revive? s <;> simp
  rw [hrevive]
  exact ⟨spelledBy_of_revive?, SpelledBy.revive?⟩

end Ident

/-! ## Names of enums -/

/-- The name of an enum and those of its variants. -/
def EnumItem.names (e : EnumItem) : List Ident :=
  e.name.ident :: e.variants.items.map fun v => v.name.ident

theorem EnumItem.isName_of_mem_names {e : EnumItem} {i : Ident} (h : i ∈ e.names) :
    i.isName = true := by
  rcases List.mem_cons.mp h with rfl | h
  · exact e.named
  · obtain ⟨v, -, rfl⟩ := List.mem_map.mp h
    exact v.named

/-- An enum that can be read has this name, or one of its variants has. -/
def Ident.NamesInEnum (i : Ident) : Prop :=
  ∃ ls e, Item.read ls = .ok (.enum e) ∧ i ∈ e.names

/-- Whatever is no keyword can be the name of an enum. -/
theorem Ident.namesInEnum_iff (i : Ident) : i.NamesInEnum ↔ i.isName = true := by
  constructor
  · rintro ⟨ls, e, -, hi⟩
    exact EnumItem.isName_of_mem_names hi
  · intro h
    obtain ⟨ls, e, -, hread, hdescribes⟩ := Sketch.exists_read_text ⟨i, h, []⟩
    have hname : e.name.ident = i := hdescribes.name
    exact ⟨ls, e, hread, hname ▸ List.mem_cons_self⟩

/-- Turning the texts of names into names. -/
theorem Ident.mapM_revive_text {is : List Ident} (h : ∀ i ∈ is, i.isName = true) :
    (is.map text).mapM revive = .ok is := by
  induction is with
  | nil => rfl
  | cons i is ih =>
      obtain ⟨hi, his⟩ := List.forall_mem_cons.mp h
      rw [List.map_cons, List.mapM_cons, revive_name hi, ih his]
      rfl

namespace Outline

/-- The texts of the nodes that are names, in the order of the nodes. -/
def names {σ : Type} (t : Outline σ) : List Text :=
  (t.nodes.toList.filter fun n => n.kind = .name).map Node.text

theorem filter_fieldNodes (clause start : Nat) (fields : List Field) :
    (fieldNodes clause start fields).filter (fun n => n.kind = .name) = [] := by
  induction fields generalizing start with
  | nil => rfl
  | cons f fields ih => simp [fieldNodes, ih]

theorem filter_variantNodes (start : Nat) (v : Variant) :
    (variantNodes start v).filter (fun n => n.kind = .name) =
      [⟨start + 1, .name, some start, [], v.name.ident.text, v.name.span⟩] := by
  cases hfields : v.fields <;>
    simp [variantNodes, payloadNodes, brackets?, clauseNodes, filter_fieldNodes, hfields]

theorem names_variantBlocks (start : Nat) (vs : List Variant) :
    ((variantBlocks start vs).filter fun n => n.kind = .name).map Node.text =
      vs.map fun v => v.name.ident.text := by
  induction vs generalizing start with
  | nil => rfl
  | cons v vs ih => simp [variantBlocks, filter_variantNodes, ih]

/-- The names in the outline of an enum are its own and those of its variants. -/
theorem names_ofEnum (e : EnumItem) : (ofEnum e).names = e.names.map Ident.text := by
  rw [names, nodes_ofEnum]
  simp [names_variantBlocks, EnumItem.names, Function.comp_def]

end Outline

/-- All names of an enum come back from where they are carried as texts: from the outline, and from
the variants and the arms of the declarations to be made. -/
structure EnumItem.NamesComeBack (e : EnumItem) : Prop where
  outline : (Outline.ofItem (.enum e)).names.mapM Ident.revive = .ok e.names
  planned : ∀ decls, (Outline.ofItem (.enum e)).generate = .ok (.planned decls) →
    ∃ (aliases : List Alias) (tags : TagEnum) (projection : Projection),
      decls = aliases.map .alias ++ [.tags tags, .projection projection] ∧
      (tags.variants.map TagVariant.name).mapM Ident.revive = .ok e.names.tail ∧
      (projection.arms.map Arm.variant).mapM Ident.revive = .ok e.names.tail ∧
      (projection.arms.map Arm.target).mapM Ident.revive = .ok e.names.tail

theorem EnumItem.namesComeBack (e : EnumItem) : e.NamesComeBack where
  outline := by
    have hnames : (Outline.ofItem (.enum e)).names = e.names.map Ident.text :=
      Outline.names_ofEnum e
    rw [hnames, Ident.mapM_revive_text fun _ => isName_of_mem_names]
  planned := by
    intro decls hplan
    obtain ⟨-, rfl⟩ := (generate_ofEnum_eq_planned e decls).mp hplan
    have htail : ∀ i ∈ e.names.tail, i.isName = true := fun i hi =>
      isName_of_mem_names (List.mem_of_mem_tail hi)
    have hback : ((signedFrom [] e.variants.items).map fun p => p.1.name.ident.text).mapM
        Ident.revive = .ok e.names.tail := by
      have htexts : ((signedFrom [] e.variants.items).map fun p => p.1.name.ident.text) =
          e.names.tail.map Ident.text := by
        conv_rhs => rw [names, List.tail_cons, ← map_fst_signedFrom [] e.variants.items]
        rw [List.map_map, List.map_map]
        rfl
      rw [htexts, Ident.mapM_revive_text htail]
    refine ⟨_, _, _, rfl, ?_, ?_, ?_⟩ <;> rw [List.map_map] <;> exact hback

/-! ## There and back -/

namespace Ident

/-- **Names survive being texts.** A text is turned into the name that it spells, and what is
printed of that name into the same one; the names that enums and their variants can have are exactly
those that come back from what is printed; so all names of an enum come back from where they are
carried, and two of them that are printed differently still are. -/
theorem revive_roundTrip :
    (∀ s i, (revive s = .ok i ↔ i.SpelledBy s) ∧ (revive s = .ok i → revive i.text = .ok i)) ∧
    (∀ i : Ident, i.NamesInEnum ↔ revive i.text = .ok i) ∧
    (∀ e : EnumItem, e.NamesComeBack) ∧
    ∀ i j : Ident, i.NamesInEnum → j.NamesInEnum → i.text ≠ j.text →
      ∃ i' j', revive i.text = .ok i' ∧ revive j.text = .ok j' ∧ i'.text ≠ j'.text := by
  have hback : ∀ i : Ident, i.NamesInEnum → revive i.text = .ok i := fun i hi =>
    revive_name (i.namesInEnum_iff.mp hi)
  refine ⟨fun s i => ⟨revive_eq_ok_iff, fun h => ?_⟩, fun i => ⟨hback i, fun h => ?_⟩,
    EnumItem.namesComeBack, ?_⟩
  · exact revive_name (revive_eq_ok_iff.mp h).isName
  · exact i.namesInEnum_iff.mpr (revive_eq_ok_iff.mp h).isName
  · intro i j hi hj hne
    exact ⟨i, j, hback i hi, hback j hj, hne⟩

/-- An enum with keywords for names, and with one that differs from a keyword only in its case. -/
def keywordSource : Text := "enum r#enum \x7b r#type(u8), Type \x7d"

theorem revive_roundTrip_keywords :
    ∃ (i : Ident) (e : EnumItem),
      revive "type /* no name */" = .ok i ∧ i.text = "r#type".toList ∧
      i.SpelledBy "type /* no name */" ∧ revive i.text = .ok i ∧ i.NamesInEnum ∧
      (lex? keywordSource).bind EnumItem.read? = some e ∧
      e.names.map text = ["r#enum".toList, "r#type".toList, "Type".toList] ∧ e.NamesComeBack ∧
      ∃ i' j', revive i.text = .ok i' ∧ revive (plain "Type").text = .ok j' ∧
        i'.text ≠ j'.text := by
  obtain ⟨hspelled, hnames, hback, hdistinct⟩ := revive_roundTrip
  have hrevive : revive "type /* no name */" = .ok ⟨true, "type".toList, by decide⟩ := by
    have hsome : revive? "type /* no name */" = some ⟨true, "type".toList, by decide⟩ := by
      decide +kernel
    rw [revive, hsome]
  have hsource : ((lex? keywordSource).bind EnumItem.read?).map (fun e => e.names.map text) =
      some ["r#enum".toList, "r#type".toList, "Type".toList] := by
    decide +kernel
  obtain ⟨e, hread, htexts⟩ := Option.map_eq_some_iff.mp hsource
  have hspelling := (hspelled _ _).1.mp hrevive
  have hagain := (hspelled _ _).2 hrevive
  have hname := (hnames _).mpr hagain
  have htype : (plain "Type").NamesInEnum := (hnames _).mpr (revive_name (by decide))
  exact ⟨_, e, hrevive, by decide, hspelling, hagain, hname, hread, htexts, hback e,
    hdistinct _ _ hname htype (by decide)⟩

end Ident

end EnumTags
