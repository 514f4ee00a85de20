import EnumTags.Options
import EnumTags.Proofs.Compaction
import EnumTags.Proofs.Reading
import Mathlib.Data.List.Nodup

/-!
# The grammar of the options

The arguments of the attribute are assignments with commas between them, and no key is given twice.
A text is read exactly if it is such a list. Otherwise the error is about the first token at which
the text stops being the start of one; only a key that stands for the second time is let pass until
its value was read.

The proof takes the text apart without the parser first: complete assignments with their commas,
then the part at which reading halts (`Halts`), then what is left. The parser is followed through
these parts, and the grammar is compared with them.

## Main definitions

* `Options.Spells`: tokens are a sentence of the grammar.
* `Options.Viable`: tokens are the start of a sentence, repeated keys apart.
* `Options.errorBehind`: what is wrong with the token behind such a start.

## Main results

* `Options.read_exact`: what is read of any tokens.
-/

namespace EnumTags

namespace Token

theorem eq_of_alone_eq_ident {t : Token} {i : Ident} (h : t.alone = .ident i) :
    t = .ident i := by
  cases t with
  | punct c joint => cases h
  | ident j | literal s | opening d | closing d => exact h

theorem exists_of_alone_eq_punct {t : Token} {c : Char} (h : t.alone = .punct c false) :
    ∃ joint, t = .punct c joint := by
  cases t with
  | punct d joint =>
      cases h
      exact ⟨joint, rfl⟩
  | ident j | literal s | opening d | closing d => cases h

end Token

namespace Options

open EnumTags.Parser

/-! ## The grammar -/

/-- The word that stands for a key. -/
def Key.ident : Key → Ident
  | .module => .plain "module"
  | .method => .plain "method"

/-- A key with the name that is given for it. -/
structure Assignment where
  key : Key
  value : Ident
  named : value.isName = true

/-- The assignment as tokens. -/
def Assignment.tokens (a : Assignment) : Tokens :=
  [.ident a.key.ident, .punct '=' false, .ident a.value]

/-- The assignments with commas between them; `trailing` tells whether one follows the last. -/
def sentence (as : List Assignment) (trailing : Bool) : Tokens :=
  Listed.joined (Tokens.op ",") (as.map Assignment.tokens) trailing

/-- The tokens are a sentence that makes these assignments, no key twice. It does not matter whether
punctuation is joint. -/
structure Spells (as : List Assignment) (ts : Tokens) : Prop where
  distinct : (as.map Assignment.key).Nodup
  written : ∃ trailing, ts.map Token.alone = sentence as trailing

/-- The tokens are the start of a sentence, or would be if the key at their end, behind which an
equals sign may stand, were not given before. -/
def Viable (ts : Tokens) : Prop :=
  (∃ as us, Spells as (ts ++ us)) ∨
    ∃ as k us, (as.map Assignment.key).Nodup ∧ k ∈ as.map Assignment.key ∧
      us <+: [.punct '=' false] ∧ ts.map Token.alone = sentence as true ++ .ident k.ident :: us

/-- What is wrong with the token behind `ts`, if these are the start of a sentence that it does not
go on. An assignment takes four tokens with its comma. -/
def errorBehind (ts : Tokens) (next : Option Token) : SyntaxError :=
  match ts.length % 4 with
  | 0 => .expected ["`module`", "`method`"] false
  | 1 => .expected ["`=`"] false
  | 2 =>
    match next with
    | some (.ident i) => if i.isName then .repeated else .keyword i.text
    | _ => .expected ["identifier"] next.isNone
  | _ => .expected ["`,`"] false

/-- The options give each key what the assignments give it. -/
def Collects (o : Options) (as : List Assignment) : Prop :=
  ∀ k v, o.get? k = some v ↔ ∃ a ∈ as, a.key = k ∧ a.value = v

/-! ## Options -/

theorem ext_get? {o o' : Options} (h : ∀ k, o.get? k = o'.get? k) : o = o' := by
  obtain ⟨module, method⟩ := o
  obtain ⟨module', method'⟩ := o'
  have hmodule : module = module' := h .module
  have hmethod : method = method' := h .method
  rw [hmodule, hmethod]

theorem get?_put (o : Options) (k k' : Key) (v : Ident) :
    (o.put k v).get? k' = if k = k' then some v else o.get? k' := by
  cases k <;> cases k' <;> rfl

/-- The options with the assignments made on top of them. -/
def assign (o : Options) (as : List Assignment) : Options :=
  as.foldl (fun o a => o.put a.key a.value) o

/-- What was given for a key before stays if no assignment is about it. -/
theorem get?_assign_of_not_mem {o : Options} {as : List Assignment} {k : Key}
    (h : k ∉ as.map Assignment.key) : (o.assign as).get? k = o.get? k := by
  induction as generalizing o with
  | nil => rfl
  | cons a as ih =>
      rw [List.map_cons, List.mem_cons, not_or] at h
      rw [assign, List.foldl_cons, ← assign, ih h.2, get?_put, if_neg (Ne.symm h.1)]

theorem get?_assign_of_mem {o : Options} {as : List Assignment}
    (hdistinct : (as.map Assignment.key).Nodup) {a : Assignment} (ha : a ∈ as) :
    (o.assign as).get? a.key = some a.value := by
  induction as generalizing o with
  | nil => cases ha
  | cons b as ih =>
      rw [List.map_cons, List.nodup_cons] at hdistinct
      rw [assign, List.foldl_cons, ← assign]
      rcases List.mem_cons.mp ha with rfl | ha
      · rw [get?_assign_of_not_mem hdistinct.1, get?_put, if_pos rfl]
      · exact ih hdistinct.2 ha

/-- Distinct assignments give each key its value, and no other key anything. -/
theorem collects_assign {as : List Assignment} (h : (as.map Assignment.key).Nodup) :
    (default.assign as).Collects as := by
  intro k v
  by_cases hk : k ∈ as.map Assignment.key
  · obtain ⟨a, ha, rfl⟩ := List.mem_map.mp hk
    rw [get?_assign_of_mem h ha, Option.some.injEq]
    refine ⟨fun hv => ⟨a, ha, rfl, hv⟩, ?_⟩
    rintro ⟨b, hb, hkey, rfl⟩
    rw [List.inj_on_of_nodup_map h ha hb hkey.symm]
  · rw [get?_assign_of_not_mem hk]
    refine iff_of_false (by cases k <;> exact nofun) ?_
    rintro ⟨a, ha, rfl, -⟩
    exact hk (List.mem_map_of_mem ha)

theorem isSome_get?_assign {as : List Assignment} (h : (as.map Assignment.key).Nodup) (k : Key) :
    ((default.assign as).get? k).isSome ↔ k ∈ as.map Assignment.key := by
  rw [Option.isSome_iff_exists, List.mem_map]
  constructor
  · rintro ⟨v, hv⟩
    obtain ⟨a, ha, hkey, -⟩ := (collects_assign h k v).mp hv
    exact ⟨a, ha, hkey⟩
  · rintro ⟨a, ha, hkey⟩
    exact ⟨a.value, (collects_assign h k a.value).mpr ⟨a, ha, hkey, rfl⟩⟩

/-- Options that collect the same assignments are the same, in whatever order these were made. -/
theorem Collects.eq_of_perm {o o' : Options} {as as' : List Assignment} (h : o.Collects as)
    (h' : o'.Collects as') (hperm : as.Perm as') : o = o' := by
  refine ext_get? fun k => Option.ext fun v => ?_
  rw [h k v, h' k v]
  simp only [hperm.mem_iff]

/-! ## Sentences -/

/-- The assignments, each with its comma. -/
def spelled (as : List Assignment) : Tokens := as.flatMap fun a => a.tokens ++ [.punct ',' false]

theorem spelled_cons (a : Assignment) (as : List Assignment) :
    spelled (a :: as) = a.tokens ++ [.punct ',' false] ++ spelled as := rfl

theorem spelled_append (as as' : List Assignment) :
    spelled (as ++ as') = spelled as ++ spelled as' := List.flatMap_append

theorem length_spelled (as : List Assignment) : (spelled as).length = 4 * as.length := by
  induction as with
  | nil => rfl
  | cons a as ih =>
      rw [spelled_cons, List.length_append, ih, List.length_cons]
      have hfirst : (a.tokens ++ [Token.punct ',' false]).length = 4 := rfl
      omega

theorem sentence_true (as : List Assignment) : sentence as true = spelled as := by
  induction as with
  | nil => rfl
  | cons a as ih =>
      cases as with
      | nil => rfl
      | cons b as =>
          rw [spelled_cons, ← ih]
          rfl

/-- Without the last comma, the last assignment stands at the end. -/
theorem sentence_append_singleton (as : List Assignment) (a : Assignment) :
    sentence (as ++ [a]) false = spelled as ++ a.tokens := by
  induction as with
  | nil => exact List.append_nil _
  | cons b as ih =>
      obtain ⟨c, cs, hcons⟩ := List.exists_cons_of_ne_nil (List.append_ne_nil_of_right_ne_nil as
        (List.cons_ne_nil a []))
      rw [spelled_cons, List.append_assoc, ← ih, List.cons_append, hcons]
      rfl

/-- A sentence is all its assignments with their commas, up to the last comma. -/
theorem exists_sentence_append (as : List Assignment) (trailing : Bool) :
    ∃ us, (us = [] ∨ us = [.punct ',' false]) ∧ sentence as trailing ++ us = spelled as := by
  cases trailing with
  | true => exact ⟨[], .inl rfl, by rw [sentence_true, List.append_nil]⟩
  | false =>
      rcases List.eq_nil_or_concat as with rfl | ⟨as, a, rfl⟩
      · exact ⟨[], .inl rfl, rfl⟩
      · refine ⟨[.punct ',' false], .inr rfl, ?_⟩
        rw [List.concat_eq_append, sentence_append_singleton, spelled_append, List.append_assoc]
        rfl

theorem sentence_isPrefix_spelled (as : List Assignment) (trailing : Bool) :
    sentence as trailing <+: spelled as := by
  obtain ⟨us, -, hus⟩ := exists_sentence_append as trailing
  exact ⟨us, hus⟩

/-- A sentence does not end inside an assignment. -/
theorem length_sentence (as : List Assignment) (trailing : Bool) :
    (sentence as trailing).length % 4 = 0 ∨ (sentence as trailing).length % 4 = 3 := by
  obtain ⟨us, hus, hspelled⟩ := exists_sentence_append as trailing
  have hlength := congrArg List.length hspelled
  rw [List.length_append, length_spelled] at hlength
  rcases hus with rfl | rfl <;> simp only [List.length_cons, List.length_nil] at hlength <;> omega

theorem alone_of_mem_spelled {as : List Assignment} {t : Token} (h : t ∈ spelled as) :
    t.alone = t := by
  obtain ⟨a, -, ha⟩ := List.mem_flatMap.mp h
  simp only [Assignment.tokens, List.cons_append, List.nil_append, List.mem_cons,
    List.not_mem_nil, or_false] at ha
  rcases ha with rfl | rfl | rfl | rfl <;> rfl

/-! ## Starts of sentences -/

theorem Key.ident_injective {k k' : Key} (h : k.ident = k'.ident) : k = k' := by
  cases k <;> cases k'
  case module.module | method.method => rfl
  case module.method | method.module => exact absurd h (by decide)

theorem Assignment.eq_of_tokens {a b : Assignment} (h : a.tokens = b.tokens) : a = b := by
  obtain ⟨k, v, hv⟩ := a
  obtain ⟨k', v', hv'⟩ := b
  simp only [Assignment.tokens, List.cons.injEq, Token.ident.injEq] at h
  obtain rfl := Key.ident_injective h.1
  obtain rfl := h.2.2.1
  rfl

/-- A key with its equals sign; some start of it stands behind the last comma. -/
def keyPart (k : Key) : Tokens := [.ident k.ident, .punct '=' false]

/-- Complete assignments at the start of others are the first of these. -/
theorem exists_of_spelled_append {as bs : List Assignment} {k : Key} {ts : Tokens}
    (h : spelled as ++ ts <+: spelled bs ++ keyPart k) :
    ∃ cs, bs = as ++ cs ∧ ts <+: spelled cs ++ keyPart k := by
  induction as generalizing bs with
  | nil => exact ⟨bs, rfl, h⟩
  | cons a as ih =>
      cases bs with
      | nil =>
          have hlength := h.length_le
          rw [spelled_cons] at hlength
          simp [Assignment.tokens, spelled, keyPart] at hlength
      | cons b bs =>
          rw [spelled_cons, spelled_cons, List.append_assoc, List.append_assoc (_ ++ _)] at h
          have hfirst : a.tokens ++ [Token.punct ',' false] = b.tokens ++ [.punct ',' false] :=
            List.IsPrefix.eq_of_length
              (List.prefix_of_prefix_length_le ((List.prefix_append _ _).trans h)
                (List.prefix_append _ _) (Nat.le_refl 4)) rfl
          obtain rfl := Assignment.eq_of_tokens (List.append_cancel_right hfirst)
          obtain ⟨cs, rfl, hcs⟩ := ih ((List.prefix_append_right_inj _).mp h)
          exact ⟨cs, rfl, hcs⟩

/-- The start of distinct assignments with their commas is the start of a sentence. -/
theorem exists_spells {as : List Assignment} (hdistinct : (as.map Assignment.key).Nodup)
    {ts : Tokens} (h : ts.map Token.alone <+: spelled as) : ∃ us, Spells as (ts ++ us) := by
  obtain ⟨us, hus⟩ := h
  have halone : us.map Token.alone = us := by
    conv_rhs => rw [← List.map_id us]
    exact List.map_congr_left fun t ht =>
      alone_of_mem_spelled (hus ▸ List.mem_append_right _ ht)
  refine ⟨us, hdistinct, true, ?_⟩
  rw [List.map_append, halone, hus, sentence_true]

/-- **The grammar is unambiguous**: tokens make the assignments of one sentence only. -/
theorem Spells.unique {as bs : List Assignment} {ts : Tokens} (has : Spells as ts)
    (hbs : Spells bs ts) : as = bs := by
  obtain ⟨trailing, htrailing⟩ := has.written
  obtain ⟨trailing', htrailing'⟩ := hbs.written
  obtain ⟨us, hus, has⟩ := exists_sentence_append as trailing
  obtain ⟨vs, hvs, hbs⟩ := exists_sentence_append bs trailing'
  rw [← htrailing] at has
  rw [← htrailing'] at hbs
  -- the number of tokens tells whether the last comma is there
  have hcomma : us = vs := by
    have hlength := congrArg List.length has
    have hlength' := congrArg List.length hbs
    rw [List.length_append, length_spelled] at hlength hlength'
    rcases hus with rfl | rfl <;> rcases hvs with rfl | rfl <;>
      simp only [List.length_cons, List.length_nil] at hlength hlength' <;> first | rfl | omega
  have hspelled : spelled as = spelled bs := by rw [← has, ← hbs, hcomma]
  have hinitial : spelled as ++ [] <+: spelled bs ++ keyPart .module := by
    rw [hspelled]
    exact (List.prefix_append_right_inj _).mpr List.nil_prefix
  obtain ⟨cs, rfl, -⟩ := exists_of_spelled_append hinitial
  have hlength := congrArg List.length hspelled
  rw [length_spelled, length_spelled, List.length_append] at hlength
  obtain rfl : cs = [] := List.length_eq_zero_iff.mp (by omega)
  rw [List.append_nil]

/-- **The starts of sentences**, said in one way: distinct assignments with their commas, and behind
them at most a key with its equals sign, be it new or not. -/
theorem viable_iff (ts : Tokens) :
    Viable ts ↔ ∃ as k, (as.map Assignment.key).Nodup ∧
      ts.map Token.alone <+: spelled as ++ keyPart k := by
  constructor
  · rintro (⟨as, us, hdistinct, trailing, hspelled⟩ | ⟨as, k, us, hdistinct, -, hus, hts⟩)
    · rw [List.map_append] at hspelled
      have hsentence : ts.map Token.alone <+: sentence as trailing := ⟨_, hspelled⟩
      exact ⟨as, .module, hdistinct, hsentence.trans
        ((sentence_isPrefix_spelled as trailing).trans (List.prefix_append _ _))⟩
    · refine ⟨as, k, hdistinct, ?_⟩
      rw [hts, sentence_true]
      exact (List.prefix_append_right_inj _).mpr ((List.cons_prefix_cons).mpr ⟨rfl, hus⟩)
  · rintro ⟨as, k, hdistinct, hinitial⟩
    by_cases hk : k ∈ as.map Assignment.key
    · -- a repeated key is what the second form of such a start allows
      have hcases : ts.map Token.alone <+: spelled as ∨ ∃ us, us <+: [.punct '=' false] ∧
          ts.map Token.alone = spelled as ++ .ident k.ident :: us := by
        rw [keyPart, List.append_cons, List.prefix_concat_iff, List.prefix_concat_iff] at hinitial
        rcases hinitial with hwhole | hkey | hbefore
        · exact .inr ⟨[.punct '=' false], List.prefix_rfl, by simpa using hwhole⟩
        · exact .inr ⟨[], List.nil_prefix, hkey⟩
        · exact .inl hbefore
      rcases hcases with hbefore | ⟨us, hus, hts⟩
      · exact .inl ⟨as, exists_spells hdistinct hbefore⟩
      · exact .inr ⟨as, k, us, hdistinct, hk, hus, sentence_true as ▸ hts⟩
    · -- a new key goes on with some value
      let a : Assignment := ⟨k, Key.module.ident, by decide⟩
      have hmore : ((as ++ [a]).map Assignment.key).Nodup := by
        rw [List.map_append, List.nodup_append]
        refine ⟨hdistinct, List.nodup_singleton _, ?_⟩
        rintro k' hk' _ (_ | ⟨_, ⟨⟩⟩) rfl
        exact hk hk'
      refine .inl ⟨_, exists_spells hmore (hinitial.trans ?_)⟩
      rw [spelled_append]
      exact (List.prefix_append_right_inj _).mpr (List.prefix_append (keyPart k) _)

theorem Viable.of_isPrefix {ts us : Tokens} (h : Viable us) (hts : ts <+: us) : Viable ts := by
  obtain ⟨as, k, hdistinct, hinitial⟩ := (viable_iff us).mp h
  exact (viable_iff ts).mpr ⟨as, k, hdistinct, (hts.map _).trans hinitial⟩

/-! ## Where reading halts -/

/-- Reading halts behind complete assignments that gave `o`: the tokens that it still reads, those
that are left, and what comes of it. -/
inductive Halts (o : Options) : Tokens → Tokens → Except SyntaxError Options → Prop
  | atEnd : Halts o [] [] (.ok o)
  | last {k joint v} (hfresh : o.get? k = none) (hname : v.isName = true) :
      Halts o [.ident k.ident, .punct '=' joint, .ident v] [] (.ok (o.put k v))
  | noKey {t rest} (h : ∀ k : Key, t ≠ .ident k.ident) :
      Halts o [] (t :: rest) (.error (.expected ["`module`", "`method`"] false))
  | noEquals {k rest} (h : ∀ joint, rest.head? ≠ some (.punct '=' joint)) :
      Halts o [.ident (Key.ident k)] rest (.error (.expected ["`=`"] false))
  | noName {k joint rest} (h : ∀ i, rest.head? ≠ some (.ident i)) :
      Halts o [.ident (Key.ident k), .punct '=' joint] rest
        (.error (.expected ["identifier"] rest.isEmpty))
  | keyword {k joint i rest} (h : i.isName = false) :
      Halts o [.ident (Key.ident k), .punct '=' joint] (.ident i :: rest) (.error (.keyword i.text))
  | repeated {k joint i rest} (hname : i.isName = true) (hgiven : (o.get? k).isSome) :
      Halts o [.ident (Key.ident k), .punct '=' joint] (.ident i :: rest) (.error .repeated)
  | noComma {k joint v t rest} (hfresh : o.get? k = none) (hname : v.isName = true)
      (h : ∀ joint, t ≠ .punct ',' joint) :
      Halts o [.ident k.ident, .punct '=' joint, .ident v] (t :: rest)
        (.error (.expected ["`,`"] false))

/-- Where brackets balance, none closes behind what was read. -/
theorem Halts.head?_ne_closing {o : Options} {us rest : Tokens} {r : Except SyntaxError Options}
    (h : Halts o us rest r) (hbalanced : Lexer.balanced [] (us ++ rest) = true) (d : Delimiter) :
    rest.head? ≠ some (.closing d) := by
  have hrest : Lexer.balanced [] rest = true := by
    cases h <;> exact hbalanced
  rintro hhead
  obtain ⟨rest', rfl⟩ := List.head?_eq_some_iff.mp hhead
  cases hrest

/-- Either reading halts, or it goes on behind an assignment and a comma. -/
theorem halts_or_goes_on (o : Options) (ts : Tokens) :
    (∃ us rest r, ts = us ++ rest ∧ Halts o us rest r) ∨
      ∃ (a : Assignment) (joint joint' : Bool) (rest : Tokens), o.get? a.key = none ∧
        ts = [.ident a.key.ident, .punct '=' joint, .ident a.value, .punct ',' joint'] ++ rest := by
  rcases ts with _ | ⟨t, ts⟩
  · exact .inl ⟨[], [], _, rfl, .atEnd⟩
  by_cases hkey : ∃ k : Key, t = .ident k.ident
  swap
  · exact .inl ⟨[], _, _, rfl, .noKey fun k hk => hkey ⟨k, hk⟩⟩
  obtain ⟨k, rfl⟩ := hkey
  by_cases hequals : ∃ joint, ts.head? = some (.punct '=' joint)
  swap
  · exact .inl ⟨[_], ts, _, rfl, .noEquals fun joint hj => hequals ⟨joint, hj⟩⟩
  obtain ⟨joint, hhead⟩ := hequals
  obtain ⟨ts, rfl⟩ := List.head?_eq_some_iff.mp hhead
  by_cases hident : ∃ i, ts.head? = some (.ident i)
  swap
  · exact .inl ⟨[_, _], ts, _, rfl, .noName fun i hi => hident ⟨i, hi⟩⟩
  obtain ⟨v, hhead⟩ := hident
  obtain ⟨ts, rfl⟩ := List.head?_eq_some_iff.mp hhead
  cases hname : v.isName with
  | false => exact .inl ⟨[_, _], _, _, rfl, .keyword hname⟩
  | true =>
      cases hfresh : o.get? k with
      | some v' => exact .inl ⟨[_, _], _, _, rfl, .repeated hname (hfresh ▸ rfl)⟩
      | none =>
          rcases ts with _ | ⟨t, ts⟩
          · exact .inl ⟨[_, _, _], [], _, rfl, .last hfresh hname⟩
          by_cases hcomma : ∃ joint', t = .punct ',' joint'
          · obtain ⟨joint', rfl⟩ := hcomma
            exact .inr ⟨⟨k, v, hname⟩, joint, joint', ts, hfresh, rfl⟩
          · exact .inl ⟨[_, _, _], _, _, rfl,
              .noComma hfresh hname fun joint' ht => hcomma ⟨joint', ht⟩⟩

/-! ## The parser -/

section

variable {ls : List Lexeme}

theorem exists_of_tokens_eq_cons {t : Token} {ts : Tokens} (h : Lexeme.tokens ls = t :: ts) :
    ∃ span rest, ls = ⟨t, span⟩ :: rest ∧ Lexeme.tokens rest = ts := by
  obtain ⟨⟨_, span⟩, rest, rfl, rfl, rfl⟩ := List.map_eq_cons_iff.mp h
  exact ⟨span, rest, rfl, rfl⟩

theorem atEnd_eq_isEmpty (h : ∀ d, (Lexeme.tokens ls).head? ≠ some (.closing d)) :
    Ahead.atEnd ls = (Lexeme.tokens ls).isEmpty := by
  rcases ls with _ | ⟨⟨t, span⟩, ls⟩
  · rfl
  · cases t with
    | closing d => exact absurd rfl (h d)
    | ident i | punct c joint | literal s | opening d => rfl

theorem op_there (c : Char) (joint : Bool) (span : Span) (ls : List Lexeme) :
    op [c] ⟨⟨.punct c joint, span⟩ :: ls, none⟩ = .ok (Tokens.op [c], ⟨ls, none⟩) := by
  have hthere : Ahead.op [c] (⟨.punct c joint, span⟩ :: ls) = true := beq_self_eq_true c
  rw [op, rest_bind, if_pos hthere]
  cases ls <;> rfl

theorem op_missing {c : Char} (h : ∀ joint, (Lexeme.tokens ls).head? ≠ some (.punct c joint)) :
    op [c] ⟨ls, none⟩ = .error (.expected [quoted [c]] false) := by
  have hmissing : ¬ Ahead.op [c] ls = true := by
    rcases ls with _ | ⟨⟨t, span⟩, ls⟩
    · exact Bool.false_ne_true
    · cases t with
      | punct d joint => exact fun hc => h joint (beq_iff_eq.mp hc ▸ rfl)
      | ident i | literal s | opening d | closing d => exact Bool.false_ne_true
  rw [op, rest_bind, if_neg hmissing]
  rfl

theorem name_there {i : Ident} (h : i.isName = true) (span : Span) (ls : List Lexeme) :
    name ⟨⟨.ident i, span⟩ :: ls, none⟩ = .ok (i, ⟨ls, none⟩) := by
  have hsome : someName ⟨⟨.ident i, span⟩ :: ls, none⟩ = .ok (⟨i, h⟩, ⟨ls, none⟩) := by
    rw [someName, rest_bind]
    simp only [h, dite_true]
    rfl
  rw [name, bind_of_ok hsome]
  rfl

theorem name_keyword {i : Ident} (h : i.isName = false) (span : Span) (ls : List Lexeme) :
    name ⟨⟨.ident i, span⟩ :: ls, none⟩ = .error (.keyword i.text) := by
  have hsome : someName ⟨⟨.ident i, span⟩ :: ls, none⟩ = .error (.keyword i.text) := by
    rw [someName, rest_bind]
    simp only [h]
    rfl
  rw [name, bind_of_error hsome]

theorem name_missing (h : ∀ i, (Lexeme.tokens ls).head? ≠ some (.ident i))
    (hclosing : ∀ d, (Lexeme.tokens ls).head? ≠ some (.closing d)) :
    name ⟨ls, none⟩ = .error (.expected ["identifier"] (Lexeme.tokens ls).isEmpty) := by
  have hsome : someName ⟨ls, none⟩ = .error (.expected ["identifier"] (Ahead.atEnd ls)) := by
    rw [someName, rest_bind]
    rcases ls with _ | ⟨⟨t, span⟩, ls⟩
    · rfl
    · cases t with
      | ident i => exact absurd rfl (h i)
      | punct c joint | literal s | opening d | closing d => rfl
  rw [name, bind_of_error hsome, atEnd_eq_isEmpty hclosing]

/-- Reads what follows a value, and the arguments behind it. -/
def behindValue (fuel : Nat) (o : Options) (k : Key) (v : Ident) : Parser Options := do
  if (o.get? k).isSome then throw SyntaxError.repeated
  let o := o.put k v
  if ← peek Ahead.atEnd then return o
  let _ ← op ","
  arguments fuel o

theorem arguments_key (fuel : Nat) (o : Options) (k : Key) (span : Span) (ls : List Lexeme) :
    arguments (fuel + 1) o ⟨⟨.ident k.ident, span⟩ :: ls, none⟩ =
      (op "=" >>= fun _ => name >>= behindValue fuel o k) ⟨ls, none⟩ := by
  cases k <;> rfl

/-- A token that is no key, and no end, is refused. -/
theorem arguments_noKey {t : Token} (hkey : ∀ k : Key, t ≠ .ident k.ident)
    (hclosing : ∀ d, t ≠ .closing d) (o : Options) (fuel : Nat) (span : Span) (ls : List Lexeme) :
    arguments (fuel + 1) o ⟨⟨t, span⟩ :: ls, none⟩ =
      .error (.expected ["`module`", "`method`"] false) := by
  have hword : ∀ k : Key, t.isWord k.ident.name = false := by
    refine fun k => Bool.eq_false_iff.mpr fun hisWord => ?_
    cases t with
    | ident i =>
        have hplain : k.ident.isPlain k.ident.name = true := by cases k <;> decide
        exact hkey k (congrArg Token.ident (Ident.eq_of_isPlain hisWord hplain))
    | punct c joint | literal s | opening d | closing d => cases hisWord
  have hmodule : Ahead.word "module" (⟨t, span⟩ :: ls) = false := hword .module
  have hmethod : Ahead.word "method" (⟨t, span⟩ :: ls) = false := hword .method
  have hend : Ahead.atEnd (⟨t, span⟩ :: ls) = false := by
    cases t with
    | closing d => exact absurd rfl (hclosing d)
    | ident i | punct c joint | literal s | opening d => rfl
  rw [arguments, peek_bind, hend, key]
  refine bind_of_error ?_
  rw [peek_bind, hmodule]
  rw [if_neg Bool.false_ne_true, peek_bind, hmethod, if_neg Bool.false_ne_true, expected, rest_bind,
    hend]
  rfl

theorem arguments_value (fuel : Nat) (o : Options) (k : Key) {v : Ident} (h : v.isName = true)
    (joint : Bool) (span span' span'' : Span) (ls : List Lexeme) :
    arguments (fuel + 1) o
        ⟨⟨.ident k.ident, span⟩ :: ⟨.punct '=' joint, span'⟩ :: ⟨.ident v, span''⟩ :: ls, none⟩ =
      behindValue fuel o k v ⟨ls, none⟩ := by
  have hop := op_there '=' joint span' (⟨.ident v, span''⟩ :: ls)
  rw [arguments_key]
  exact (bind_of_ok hop).trans (bind_of_ok (name_there h span'' ls))

/-- Behind a new value that something follows, a comma is read. -/
theorem behindValue_fresh {fuel : Nat} {o : Options} {k : Key} (hfresh : o.get? k = none)
    (v : Ident) (hend : Ahead.atEnd ls = false) :
    behindValue fuel o k v ⟨ls, none⟩ =
      (op "," >>= fun _ => arguments fuel (o.put k v)) ⟨ls, none⟩ := by
  simp only [behindValue, hfresh, Option.isSome_none, Bool.false_eq_true, if_false]
  rw [peek_bind, hend]
  rfl

/-- **The parser halts** where the tokens say, and with what they say. -/
theorem arguments_of_halts {o : Options} {us rest : Tokens} {r : Except SyntaxError Options}
    (h : Halts o us rest r) (hclosing : ∀ d, rest.head? ≠ some (.closing d))
    (hls : Lexeme.tokens ls = us ++ rest) (fuel : Nat) :
    arguments (fuel + 1) o ⟨ls, none⟩ = r.map fun o => (o, ⟨[], none⟩) := by
  cases h with
  | atEnd =>
      obtain rfl := List.map_eq_nil_iff.mp hls
      rfl
  | @last k joint v hfresh hname =>
      obtain ⟨span, ls, rfl, hls₁⟩ := exists_of_tokens_eq_cons hls
      obtain ⟨span', ls, rfl, hls₂⟩ := exists_of_tokens_eq_cons hls₁
      obtain ⟨span'', ls, rfl, hls₃⟩ := exists_of_tokens_eq_cons hls₂
      obtain rfl := List.map_eq_nil_iff.mp hls₃
      rw [arguments_value fuel o k hname]
      simp only [behindValue, hfresh, Option.isSome_none, Bool.false_eq_true, if_false]
      rfl
  | @noKey t rest hkey =>
      obtain ⟨span, ls, rfl, hls₁⟩ := exists_of_tokens_eq_cons hls
      exact arguments_noKey hkey (fun d ht => hclosing d (congrArg some ht)) o fuel span ls
  | @noEquals k rest hequals =>
      obtain ⟨span, ls, rfl, rfl⟩ := exists_of_tokens_eq_cons hls
      rw [arguments_key]
      exact bind_of_error (op_missing hequals)
  | @noName k joint rest hident =>
      obtain ⟨span, ls, rfl, hls₁⟩ := exists_of_tokens_eq_cons hls
      obtain ⟨span', ls, rfl, rfl⟩ := exists_of_tokens_eq_cons hls₁
      rw [arguments_key]
      refine (bind_of_ok (op_there '=' joint span' ls)).trans ?_
      exact bind_of_error (name_missing hident hclosing)
  | @keyword k joint i rest hname =>
      obtain ⟨span, ls, rfl, hls₁⟩ := exists_of_tokens_eq_cons hls
      obtain ⟨span', ls, rfl, hls₂⟩ := exists_of_tokens_eq_cons hls₁
      obtain ⟨span'', ls, rfl, hls₃⟩ := exists_of_tokens_eq_cons hls₂
      rw [arguments_key]
      refine (bind_of_ok (op_there '=' joint span' _)).trans ?_
      exact bind_of_error (name_keyword hname span'' ls)
  | @repeated k joint i rest hname hgiven =>
      obtain ⟨span, ls, rfl, hls₁⟩ := exists_of_tokens_eq_cons hls
      obtain ⟨span', ls, rfl, hls₂⟩ := exists_of_tokens_eq_cons hls₁
      obtain ⟨span'', ls, rfl, hls₃⟩ := exists_of_tokens_eq_cons hls₂
      rw [arguments_value fuel o k hname, behindValue, if_pos hgiven]
      rfl
  | @noComma k joint v t rest hfresh hname hcomma =>
      obtain ⟨span, ls, rfl, hls₁⟩ := exists_of_tokens_eq_cons hls
      obtain ⟨span', ls, rfl, hls₂⟩ := exists_of_tokens_eq_cons hls₁
      obtain ⟨span'', ls, rfl, hls₃⟩ := exists_of_tokens_eq_cons hls₂
      have hls : Lexeme.tokens ls = t :: rest := hls₃
      have hend : Ahead.atEnd ls = false := by
        rw [atEnd_eq_isEmpty (hls ▸ hclosing), hls]
        rfl
      rw [arguments_value fuel o k hname, behindValue_fresh hfresh v hend]
      refine bind_of_error (op_missing fun joint' hhead => ?_)
      rw [hls] at hhead
      exact hcomma joint' (Option.some.inj hhead)

theorem arguments_assignment (fuel : Nat) {o : Options} {a : Assignment}
    (hfresh : o.get? a.key = none) (joint joint' : Bool) (s₁ s₂ s₃ s₄ : Span)
    (ls : List Lexeme) :
    arguments (fuel + 1) o ⟨⟨.ident a.key.ident, s₁⟩ :: ⟨.punct '=' joint, s₂⟩ ::
        ⟨.ident a.value, s₃⟩ :: ⟨.punct ',' joint', s₄⟩ :: ls, none⟩ =
      arguments fuel (o.put a.key a.value) ⟨ls, none⟩ := by
  rw [arguments_value fuel o a.key a.named, behindValue_fresh hfresh a.value rfl]
  exact bind_of_ok (op_there ',' joint' s₄ ls)

end

/-! ## A whole run -/

/-- Tokens taken apart: complete assignments with their commas, what is read behind them, and what
is left when reading halts there with `r`. -/
structure Parts (o : Options) (ts : Tokens) (r : Except SyntaxError Options) where
  as : List Assignment
  before : Tokens
  last : Tokens
  rest : Tokens
  eq : ts = before ++ last ++ rest
  spelled : before.map Token.alone = spelled as
  distinct : (as.map Assignment.key).Nodup
  fresh : ∀ a ∈ as, o.get? a.key = none
  halts : Halts (o.assign as) last rest r

/-- What is taken apart behind an assignment about a new key is taken apart with it. -/
def Parts.cons {o : Options} {ts : Tokens} {r : Except SyntaxError Options} (a : Assignment)
    (joint joint' : Bool) (hfresh : o.get? a.key = none)
    (parts : Parts (o.put a.key a.value) ts r) :
    Parts o (.ident a.key.ident :: .punct '=' joint :: .ident a.value :: .punct ',' joint' :: ts)
      r where
  as := a :: parts.as
  before := .ident a.key.ident :: .punct '=' joint :: .ident a.value :: .punct ',' joint' ::
    parts.before
  last := parts.last
  rest := parts.rest
  eq := by
    simp only [List.cons_append, List.cons.injEq, true_and]
    exact parts.eq
  spelled := by
    rw [spelled_cons, ← parts.spelled]
    rfl
  distinct := by
    refine List.nodup_cons.mpr ⟨fun hmem => ?_, parts.distinct⟩
    obtain ⟨b, hb, hkey⟩ := List.mem_map.mp hmem
    have hnone := parts.fresh b hb
    rw [hkey, get?_put, if_pos rfl] at hnone
    cases hnone
  fresh := by
    refine List.forall_mem_cons.mpr ⟨hfresh, fun b hb => ?_⟩
    have hnone := parts.fresh b hb
    rw [get?_put] at hnone
    split at hnone
    · cases hnone
    · exact hnone
  halts := parts.halts

/-- **A whole run.** The tokens can be taken apart so that the parser does what happens where
reading halts. -/
theorem arguments_run {fuel : Nat} {o : Options} {ls : List Lexeme} (hfuel : ls.length < fuel)
    (hbalanced : Lexer.balanced [] (Lexeme.tokens ls) = true) :
    ∃ r, Nonempty (Parts o (Lexeme.tokens ls) r) ∧
      arguments fuel o ⟨ls, none⟩ = r.map fun o => (o, ⟨[], none⟩) := by
  induction fuel generalizing o ls with
  | zero => cases hfuel
  | succ fuel ih =>
      rcases halts_or_goes_on o (Lexeme.tokens ls) with
        ⟨us, rest, r, htokens, hhalts⟩ | ⟨a, joint, joint', rest, hfresh, htokens⟩
      · have hclosing : ∀ d, rest.head? ≠ some (.closing d) :=
          hhalts.head?_ne_closing (htokens ▸ hbalanced)
        exact ⟨r, ⟨⟨[], [], us, rest, htokens, rfl, List.nodup_nil, nofun, hhalts⟩⟩,
          arguments_of_halts hhalts hclosing htokens fuel⟩
      · obtain ⟨s₁, ls₁, rfl, h₁⟩ := exists_of_tokens_eq_cons htokens
        obtain ⟨s₂, ls₂, rfl, h₂⟩ := exists_of_tokens_eq_cons h₁
        obtain ⟨s₃, ls₃, rfl, h₃⟩ := exists_of_tokens_eq_cons h₂
        obtain ⟨s₄, ls₄, rfl, -⟩ := exists_of_tokens_eq_cons h₃
        have hless : ls₄.length < fuel := by
          simp only [List.length_cons] at hfuel
          omega
        obtain ⟨r, ⟨parts⟩, hrun⟩ := ih (o := o.put a.key a.value) hless hbalanced
        refine ⟨r, ⟨parts.cons a joint joint' hfresh⟩, ?_⟩
        rw [arguments_assignment fuel hfresh]
        exact hrun

/-! ## What comes of it -/

section

variable {as : List Assignment} {before last rest : Tokens}

/-- A key is new exactly if nothing was given for it. -/
theorem nodup_append_singleton (h : (as.map Assignment.key).Nodup) {a : Assignment}
    (hfresh : (default.assign as).get? a.key = none) :
    ((as ++ [a]).map Assignment.key).Nodup := by
  rw [List.map_append, List.nodup_append]
  refine ⟨h, List.nodup_singleton _, ?_⟩
  rintro _ hk _ (_ | ⟨_, ⟨⟩⟩) rfl
  have hsome := (isSome_get?_assign h a.key).mpr hk
  rw [hfresh] at hsome
  cases hsome

/-- Where reading ends well, it has read a sentence, and collected what that gives. -/
theorem Parts.of_ok {ts : Tokens} {o : Options} (parts : Parts default ts (.ok o)) :
    ∃ as, Spells as ts ∧ o.Collects as := by
  obtain ⟨as, before, last, rest, rfl, hspelled, hdistinct, -, hhalts⟩ := parts
  cases hhalts with
  | atEnd =>
      refine ⟨as, ⟨hdistinct, true, ?_⟩, collects_assign hdistinct⟩
      rw [List.append_nil, List.append_nil, hspelled, sentence_true]
  | @last k joint v hfresh hname =>
      have hmore := nodup_append_singleton hdistinct (a := ⟨k, v, hname⟩) hfresh
      refine ⟨as ++ [⟨k, v, hname⟩], ⟨hmore, false, ?_⟩, ?_⟩
      · rw [sentence_append_singleton, List.append_nil, List.map_append, hspelled]
        rfl
      · have hcollects := collects_assign hmore
        rwa [assign, List.foldl_append] at hcollects

/-- Behind complete assignments stands a key with its equals sign, and behind these nothing or the
rest of another assignment. -/
theorem exists_spelled_keyPart (cs : List Assignment) (k : Key) :
    ∃ k' us, spelled cs ++ keyPart k = .ident (Key.ident k') :: .punct '=' false :: us ∧
      (us = [] ∨ ∃ c ∈ cs, ∃ vs, c.key = k' ∧ us = .ident c.value :: .punct ',' false :: vs) := by
  cases cs with
  | nil => exact ⟨k, [], rfl, .inl rfl⟩
  | cons c cs => exact ⟨c.key, _, rfl, .inr ⟨c, List.mem_cons_self, _, rfl, rfl⟩⟩

/-- Behind the part at which reading halts with an error, no sentence goes on with the next
token. -/
theorem Halts.not_viable {t : Token} {e : SyntaxError}
    (hspelled : before.map Token.alone = spelled as)
    (h : Halts (default.assign as) last (t :: rest) (.error e)) :
    ¬ Viable (before ++ last ++ [t]) := by
  rw [viable_iff]
  rintro ⟨bs, k, hdistinct, hinitial⟩
  rw [List.append_assoc, List.map_append, hspelled] at hinitial
  obtain ⟨cs, rfl, hbehind⟩ := exists_of_spelled_append hinitial
  rw [List.map_append, List.nodup_append] at hdistinct
  obtain ⟨k', us, hcs, hus⟩ := exists_spelled_keyPart cs k
  rw [hcs] at hbehind
  cases h with
  | noKey hkey =>
      have ht : t.alone = .ident k'.ident := (List.cons_prefix_cons.mp hbehind).1
      exact hkey k' (Token.eq_of_alone_eq_ident ht)
  | noEquals hequals =>
      have ht : t.alone = .punct '=' false :=
        (List.cons_prefix_cons.mp (List.cons_prefix_cons.mp hbehind).2).1
      obtain ⟨joint, rfl⟩ := Token.exists_of_alone_eq_punct ht
      exact hequals joint rfl
  | @noName k'' joint rest hident =>
      have ht : [t.alone] <+: us :=
        (List.cons_prefix_cons.mp (List.cons_prefix_cons.mp hbehind).2).2
      rcases hus with rfl | ⟨c, -, vs, -, rfl⟩
      · exact absurd (List.prefix_nil.mp ht) (List.cons_ne_nil _ _)
      · have hvalue := Token.eq_of_alone_eq_ident (List.cons_prefix_cons.mp ht).1
        exact hident c.value (congrArg some hvalue)
  | @keyword k'' joint i rest hname =>
      have ht : [(Token.ident i).alone] <+: us :=
        (List.cons_prefix_cons.mp (List.cons_prefix_cons.mp hbehind).2).2
      rcases hus with rfl | ⟨c, -, vs, -, rfl⟩
      · exact absurd (List.prefix_nil.mp ht) (List.cons_ne_nil _ _)
      · have hvalue : i = c.value := Token.ident.inj (List.cons_prefix_cons.mp ht).1
        rw [hvalue, c.named] at hname
        cases hname
  | @repeated k'' joint i rest hname hgiven =>
      have hkey : k'' = k' :=
        Key.ident_injective (Token.ident.inj (List.cons_prefix_cons.mp hbehind).1)
      have ht : [(Token.ident i).alone] <+: us :=
        (List.cons_prefix_cons.mp (List.cons_prefix_cons.mp hbehind).2).2
      rcases hus with rfl | ⟨c, hc, vs, hck, rfl⟩
      · exact absurd (List.prefix_nil.mp ht) (List.cons_ne_nil _ _)
      · have hmem := (isSome_get?_assign hdistinct.1 k'').mp hgiven
        exact hdistinct.2.2 k'' hmem c.key (List.mem_map_of_mem hc) (hkey.trans hck.symm)
  | @noComma k'' joint v t rest hfresh hname hcomma =>
      have ht : [.ident v, t.alone] <+: us :=
        (List.cons_prefix_cons.mp (List.cons_prefix_cons.mp hbehind).2).2
      rcases hus with rfl | ⟨c, -, vs, -, rfl⟩
      · exact absurd (List.prefix_nil.mp ht) (List.cons_ne_nil _ _)
      · have hmark := (List.cons_prefix_cons.mp (List.cons_prefix_cons.mp ht).2).1
        obtain ⟨joint', rfl⟩ := Token.exists_of_alone_eq_punct hmark
        exact hcomma joint' rfl

/-- What was read when reading halts with an error is the start of a sentence. -/
theorem Halts.viable {e : SyntaxError} (hspelled : before.map Token.alone = spelled as)
    (hdistinct : (as.map Assignment.key).Nodup)
    (h : Halts (default.assign as) last rest (.error e)) : Viable (before ++ last) := by
  rw [viable_iff]
  cases h with
  | noKey hkey => exact ⟨as, .module, hdistinct, by simp [hspelled]⟩
  | @noEquals k =>
      refine ⟨as, k, hdistinct, ?_⟩
      rw [List.map_append, hspelled]
      exact (List.prefix_append_right_inj _).mpr ⟨[.punct '=' false], rfl⟩
  | @noName k | @keyword k | @repeated k =>
      refine ⟨as, k, hdistinct, ?_⟩
      rw [List.map_append, hspelled]
      exact List.prefix_rfl
  | @noComma k joint v t rest hfresh hname hcomma =>
      refine ⟨as ++ [⟨k, v, hname⟩], k, nodup_append_singleton hdistinct hfresh, ?_⟩
      rw [List.map_append, hspelled, spelled_append, List.append_assoc]
      exact (List.prefix_append_right_inj _).mpr (List.prefix_append _ _)

/-- The error is the one for the next token. -/
theorem Halts.error_eq {e : SyntaxError} (hspelled : before.map Token.alone = spelled as)
    (h : Halts (default.assign as) last rest (.error e)) :
    e = errorBehind (before ++ last) rest.head? := by
  have hbefore : before.length = 4 * as.length := by
    rw [← length_spelled, ← hspelled, List.length_map]
  have hlength : (before ++ last).length % 4 = last.length % 4 := by
    rw [List.length_append]
    omega
  have hplace : errorBehind (before ++ last) rest.head? = errorBehind last rest.head? := by
    unfold errorBehind
    rw [hlength]
  rw [hplace]
  cases h with
  | noKey hkey => rfl
  | noEquals hequals => rfl
  | @noName k joint rest hident =>
      rcases rest with _ | ⟨t, rest⟩
      · rfl
      · cases t with
        | ident i => exact absurd rfl (hident i)
        | punct c joint | literal s | opening d | closing d => rfl
  | @keyword k joint i rest hname =>
      have herror : errorBehind [.ident k.ident, .punct '=' joint] (some (.ident i)) =
        if i.isName then .repeated else .keyword i.text := rfl
      rw [List.head?_cons, herror, hname]
      rfl
  | @repeated k joint i rest hname hgiven =>
      have herror : errorBehind [.ident k.ident, .punct '=' joint] (some (.ident i)) =
        if i.isName then .repeated else .keyword i.text := rfl
      rw [List.head?_cons, herror, hname]
      rfl
  | noComma hfresh hname hcomma => rfl

/-- Where reading halts with an error, what was read is the longest start of a sentence, the whole
is no sentence, and the error is the one for the next token. -/
theorem Parts.of_error {ts : Tokens} {e : SyntaxError} (parts : Parts default ts (.error e)) :
    (∀ as, ¬ Spells as ts) ∧ ∃ us rest, ts = us ++ rest ∧ Viable us ∧
      (∀ vs, vs <+: ts → Viable vs → vs <+: us) ∧ e = errorBehind us rest.head? := by
  obtain ⟨as, before, last, rest, rfl, hspelled, hdistinct, -, hhalts⟩ := parts
  have hnext : ∀ t rest', rest = t :: rest' → ¬ Viable (before ++ last ++ [t]) := by
    rintro t rest' rfl
    exact hhalts.not_viable hspelled
  refine ⟨fun bs hbs => ?_, before ++ last, rest, rfl, hhalts.viable hspelled hdistinct,
    fun vs hvs hviable => ?_, hhalts.error_eq hspelled⟩
  · rcases rest with _ | ⟨t, rest⟩
    · -- only a key, or a key with its equals sign, can be left at the end of the tokens
      obtain ⟨trailing, hsentence⟩ := hbs.written
      have hlength := length_sentence bs trailing
      have hbefore : before.length = 4 * as.length := by
        rw [← length_spelled, ← hspelled, List.length_map]
      rw [← hsentence, List.length_map, List.append_nil, List.length_append] at hlength
      cases hhalts with
      | noEquals | noName =>
          simp only [List.length_cons, List.length_nil] at hlength
          omega
    · have hwhole : Viable (before ++ last ++ t :: rest) := .inl ⟨bs, [], by rwa [List.append_nil]⟩
      exact hnext t rest rfl (hwhole.of_isPrefix ⟨rest, List.append_assoc _ _ _⟩)
  · rcases Nat.lt_or_ge (before ++ last).length vs.length with hlt | hle
    · rcases rest with _ | ⟨t, rest⟩
      · exact List.append_nil (before ++ last) ▸ hvs
      · have hmore : before ++ last ++ [t] <+: vs := by
          refine List.prefix_of_prefix_length_le ⟨rest, List.append_assoc _ _ _⟩ hvs ?_
          rw [List.length_append]
          exact hlt
        exact absurd (hviable.of_isPrefix hmore) (hnext t rest rfl)
    · exact List.prefix_of_prefix_length_le hvs (List.prefix_append _ _) hle

end

/-! ## Reading -/

section

variable {ls : List Lexeme} (h : Lexer.balanced [] (Lexeme.tokens ls) = true)

include h

theorem exists_parts : ∃ r, Nonempty (Parts default (Lexeme.tokens ls) r) ∧ read ls = r := by
  obtain ⟨r, hparts, hrun⟩ := arguments_run (o := default) (Nat.lt_succ_self ls.length) h
  refine ⟨r, hparts, ?_⟩
  cases r with
  | ok o => rw [read, Parser.run, hrun]; rfl
  | error e => rw [read, Parser.run, hrun]; rfl

/-- A sentence is read, since where reading halts with an error there is none. -/
theorem exists_read_of_spells {as : List Assignment} (has : Spells as (Lexeme.tokens ls)) :
    ∃ o, read ls = .ok o ∧ o.Collects as := by
  obtain ⟨r, ⟨parts⟩, hread⟩ := exists_parts h
  cases r with
  | ok o =>
      obtain ⟨bs, hbs, hcollects⟩ := parts.of_ok
      exact ⟨o, hread, has.unique hbs ▸ hcollects⟩
  | error e => exact absurd has (parts.of_error.1 as)

theorem read_eq_ok_iff (o : Options) :
    read ls = .ok o ↔ ∃ as, Spells as (Lexeme.tokens ls) ∧ o.Collects as := by
  constructor
  · intro ho
    obtain ⟨r, ⟨parts⟩, hread⟩ := exists_parts h
    obtain rfl : r = .ok o := hread.symm.trans ho
    exact parts.of_ok
  · rintro ⟨as, has, hcollects⟩
    obtain ⟨o', ho', hcollects'⟩ := exists_read_of_spells h has
    rw [ho', hcollects.eq_of_perm hcollects' (List.Perm.refl as)]

end

/-- **What is read of the arguments.** Where brackets balance, the options are read exactly from
the sentences of the grammar, with what these give to the keys, in whatever order they do. From any
other tokens comes the error about the one behind their longest start of a sentence. -/
theorem read_exact {ls : List Lexeme} (h : Lexer.balanced [] (Lexeme.tokens ls) = true) :
    (∀ o, read ls = .ok o ↔ ∃ as, Spells as (Lexeme.tokens ls) ∧ o.Collects as) ∧
    (∀ as as' ls', as.Perm as' → Spells as (Lexeme.tokens ls) → Spells as' (Lexeme.tokens ls') →
      Lexer.balanced [] (Lexeme.tokens ls') = true → read ls' = read ls) ∧
    ∀ e, read ls = .error e ↔ (∀ as, ¬ Spells as (Lexeme.tokens ls)) ∧
      ∃ ts rest, Lexeme.tokens ls = ts ++ rest ∧ Viable ts ∧
        (∀ us, us <+: Lexeme.tokens ls → Viable us → us <+: ts) ∧
          e = errorBehind ts rest.head? := by
  refine ⟨fun o => read_eq_ok_iff h o, ?_, fun e => ?_⟩
  · intro as as' ls' hperm hspells hspells' h'
    obtain ⟨o, ho⟩ := exists_read_of_spells h hspells
    obtain ⟨o', ho'⟩ := exists_read_of_spells h' hspells'
    rw [ho.1, ho'.1, ho'.2.eq_of_perm ho.2 hperm.symm]
  · constructor
    · intro he
      obtain ⟨r, ⟨parts⟩, hread⟩ := exists_parts h
      obtain rfl : r = .error e := hread.symm.trans he
      exact parts.of_error
    · rintro ⟨hnone, ts, rest, htokens, hviable, hlongest, rfl⟩
      obtain ⟨r, ⟨parts⟩, hread⟩ := exists_parts h
      cases r with
      | ok o =>
          obtain ⟨as, has, -⟩ := parts.of_ok
          exact absurd has (hnone as)
      | error e =>
          obtain ⟨-, us, rest', htokens', hviable', hlongest', rfl⟩ := parts.of_error
          -- of two longest starts, each is the start of the other
          have hle : us <+: ts := hlongest us ⟨rest', htokens'.symm⟩ hviable'
          have hge : ts <+: us := hlongest' ts ⟨rest, htokens.symm⟩ hviable
          obtain rfl : us = ts := hle.eq_of_length (Nat.le_antisymm hle.length_le hge.length_le)
          obtain rfl : rest' = rest := List.append_cancel_left (htokens'.symm.trans htokens)
          exact hread

/-- A key is refused for standing twice only behind its value, and before what is wrong there. -/
theorem read_repeated_key :
    ∃ ls, lex? "module = a, method = r#fn, module = b c" = some ls ∧
      Lexer.balanced [] (Lexeme.tokens ls) = true ∧ read ls = .error .repeated ∧
      ∃ ts rest, Lexeme.tokens ls = ts ++ rest ∧ Viable ts ∧
        (∀ us, us <+: Lexeme.tokens ls → Viable us → us <+: ts) ∧
          .repeated = errorBehind ts rest.head? := by
  have hcomputed : (lex? "module = a, method = r#fn, module = b c").any (fun ls =>
      Lexer.balanced [] (Lexeme.tokens ls) && decide (read ls = .error .repeated)) = true := by
    decide +kernel
  obtain ⟨ls, hls, hfacts⟩ := (Option.any_eq_true _ _).mp hcomputed
  rw [Bool.and_eq_true, decide_eq_true_eq] at hfacts
  obtain ⟨hbalanced, hread⟩ := hfacts
  exact ⟨ls, hls, hbalanced, hread, (((read_exact hbalanced).2.2 .repeated).mp hread).2⟩

end Options

end EnumTags
