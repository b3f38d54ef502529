import GraphQuery.Proofs.Tokens
import Mathlib.Data.List.Induction

/-!
# Every parameter in the text is bound

A database that runs a query takes the names after the sign of a parameter out of the text and looks
each of them up in the table. So the two have to agree, and they do: outside of quoted names, the
names that a reader of the text finds are the names of the table, in the order in which they occur
first, and every entry has the value of the one parameter that is written by its name.

Parameter names have to be plain for this, or a reader would not see where they end. Of aliases it
is enough that they hold neither the sign of a parameter nor a quote.
-/

namespace GraphQuery

open Lexer Name

/-- The sign before the name of a parameter. -/
def paramSign : Char := '$'

/-- The names after the signs of parameters, in the order of the text. Within quotes there are none;
a doubled quote ends a quoted name and begins it again. -/
def paramNames : (quotes : Bool) → List Char → List String
  | _, [] => []
  | true, c :: rest => paramNames (c != quote) rest
  | false, c :: rest =>
    if c = quote then paramNames true rest
    else if c = paramSign then String.ofList (rest.takeWhile isPart) :: paramNames false rest
    else paramNames false rest

/-- The parameters that a text mentions. -/
def paramNamesOf (text : String) : List String :=
  paramNames false text.toList

/-! ## Reading over a piece -/

/-- A character that neither begins a parameter nor a quoted name. -/
def Inert (c : Char) : Prop :=
  c ≠ quote ∧ c ≠ paramSign

theorem inert_of_isPart {c : Char} (h : isPart c) : Inert c := by
  constructor
  · rintro rfl
    exact absurd h (by decide)
  · rintro rfl
    exact absurd h (by decide)

section Scan

variable {after : List Char}

theorem paramNames_inert {text : List Char} (h : ∀ c ∈ text, Inert c) :
    paramNames false (text ++ after) = paramNames false after := by
  induction text with
  | nil => rfl
  | cons c text ih =>
    obtain ⟨hq, hs⟩ := h c List.mem_cons_self
    rw [List.cons_append, paramNames, if_neg hq, if_neg hs]
    exact ih fun d hd => h d (List.mem_cons_of_mem _ hd)

theorem paramNames_doubled (name : List Char) :
    paramNames true (doubled name ++ quote :: after) = paramNames false after := by
  induction name with
  | nil => simp [doubled, paramNames]
  | cons c name ih =>
    by_cases hc : c = quote
    · subst hc
      rw [doubled_cons_quote]
      simpa [paramNames] using ih
    · have hne : (c != quote) = true := bne_iff_ne.mpr hc
      rw [doubled_cons_of_ne hc, List.cons_append, paramNames, hne]
      exact ih

theorem paramNames_quoted (name : String) :
    paramNames false ((quoted name).toList ++ after) = paramNames false after := by
  rw [toList_quoted, List.cons_append, List.append_assoc, paramNames, if_pos rfl]
  exact paramNames_doubled name.toList

theorem paramNames_param {name : String} (hname : isPlain name)
    (h : Meets (isPart · = false) after) :
    paramNames false (paramSign :: (name.toList ++ after)) = name :: paramNames false after := by
  have hchars : ∀ c ∈ name.toList, isPart c := fun c => isPart_of_mem_isPlain hname
  rw [paramNames, if_neg (by decide), if_pos rfl, takeWhile_isPart hchars h, String.ofList_toList,
    paramNames_inert fun c hc => inert_of_isPart (hchars c hc)]

/-- A number holds letters, digits, points and dashes only. -/
theorem inert_of_isNumeral {text : List Char} (ht : IsNumeral text) : ∀ c ∈ text, Inert c := by
  obtain ⟨d, rest, rfl, hd, hchain⟩ := ht
  have hrest : ∀ (b : Char) (rest : List Char),
      ((b :: rest).IsChain fun b c => continuesNumber b c) → ∀ c ∈ rest, Inert c := by
    intro b rest
    induction rest generalizing b with
    | nil => exact fun _ c hc => absurd hc List.not_mem_nil
    | cons c rest ih =>
      intro hchain
      obtain ⟨hc, hrest⟩ := List.isChain_cons_cons.mp hchain
      refine List.forall_mem_cons.mpr ⟨?_, ih c hrest⟩
      simp only [continuesNumber, Bool.or_eq_true, Bool.and_eq_true, beq_iff_eq] at hc
      rcases hc with (hc | rfl) | ⟨_, rfl⟩
      · exact inert_of_isPart hc
      · exact ⟨by decide, by decide⟩
      · exact ⟨by decide, by decide⟩
  exact List.forall_mem_cons.mpr ⟨inert_of_isPart (isPart_of_isDigit hd), hrest d rest hchain⟩

theorem inert_of_isSigned {text : List Char} (ht : IsSigned text) : ∀ c ∈ text, Inert c := by
  rcases ht with ht | ⟨body, rfl, hbody⟩
  · exact inert_of_isNumeral ht
  · exact List.forall_mem_cons.mpr ⟨⟨by decide, by decide⟩, inert_of_isNumeral hbody⟩

theorem inert_of_isPlain {name : String} (h : isPlain name) : ∀ c ∈ name.toList, Inert c :=
  fun _ hc => inert_of_isPart (isPart_of_mem_isPlain h hc)

theorem Literal.inert_text (value : Literal) : ∀ c ∈ value.text.toList, Inert c := by
  cases value with
  | null => exact inert_of_isPlain (by decide)
  | bool b => cases b <;> exact inert_of_isPlain (by decide)
  | int n => exact inert_of_isSigned (isSigned_int n)
  | float x => exact inert_of_isSigned (Decimal.isSigned_text x)

theorem Mark.inert_char (m : Mark) : Inert m.char := by
  cases m <;> exact ⟨by decide, by decide⟩

theorem paramNames_written (name : String) :
    paramNames false ((written name).toList ++ after) = paramNames false after := by
  unfold written
  split
  · exact paramNames_inert (inert_of_isPlain ‹_›)
  · exact paramNames_quoted name

end Scan

/-! ## Reading all of the text -/

/-- Aliases hold neither a quote nor the sign of a parameter, and parameter names are plain. -/
structure Readable (names : Names) (vs : List Visit) : Prop where
  inert : ∀ r, .ref r ∈ vs → ∀ c ∈ (names (.ref r)).toList, Inert c
  plain : ∀ p, .param p ∈ vs → isPlain (names (.param p))

/-- **A reader finds the parameters that are mentioned**, each by its name and in their order. -/
theorem paramNames_spell {names : Names} {ps : List Piece} (h : Separated ps)
    (hn : Readable names (mentioned ps)) :
    paramNamesOf (spell names ps)
      = (paramsOf (mentioned ps)).map fun p => names (.param p) := by
  unfold paramNamesOf
  induction ps with
  | nil => rfl
  | cons p ps ih =>
    have hps : Readable names (mentioned ps) := by
      rw [mentioned_cons] at hn
      exact ⟨fun r hr => hn.inert r (List.mem_append_right _ hr),
        fun q hq => hn.plain q (List.mem_append_right _ hq)⟩
    have ih := ih h.tail hps
    rw [spell_cons, String.toList_append]
    cases p with
    | space =>
      rw [paramNames_inert (by simpa [Piece.text] using ⟨by decide, by decide⟩)]
      exact ih
    | lineBreak =>
      rw [paramNames_inert (by simpa [Piece.text] using ⟨by decide, by decide⟩)]
      exact ih
    | mark m =>
      rw [paramNames_inert (by simpa [Piece.text] using m.inert_char)]
      exact ih
    | word k =>
      rw [Piece.text, paramNames_inert (inert_of_isPlain k.isPlain_text)]
      exact ih
    | aliasOf r =>
      rw [Piece.text, paramNames_inert (hn.inert r (by simp [Piece.visit?]))]
      exact ih
    | param p =>
      -- the name goes as far as it is plain, since what follows cuts it off
      have hplain := hn.plain p (by simp [Piece.visit?])
      have hmeets := (h.meets names).1 rfl
      rw [Piece.text, String.toList_append, List.append_assoc]
      refine (paramNames_param hplain (hmeets.imp fun _ hc => hc.1)).trans ?_
      rw [ih]
      rfl
    | label name =>
      rw [Piece.text, paramNames_quoted]
      exact ih
    | given name =>
      rw [Piece.text, paramNames_written]
      exact ih
    | literal value =>
      rw [Piece.text, paramNames_inert value.inert_text]
      exact ih

/-! ## The table -/

theorem eraseDups_concat (names : List String) (name : String) :
    (names ++ [name]).eraseDups
      = if name ∈ names then names.eraseDups else names.eraseDups ++ [name] := by
  rw [List.eraseDups_append]
  by_cases h : name ∈ names <;> simp [List.removeAll, h, List.eraseDups_cons]

theorem firstVisits_concat (vs : List Visit) (v : Visit) :
    firstVisits (vs ++ [v]) = addVisit (firstVisits vs) v := by
  simp [firstVisits, List.foldl_append]

/-- Names that tell parameters apart occur first where the parameters do. -/
theorem eraseDups_paramsOf {vs : List Visit} {f : Param → String}
    (hid : ∀ v ∈ vs, ∀ w ∈ vs, v.id = w.id → v = w)
    (hf : ∀ p, .param p ∈ vs → ∀ p', .param p' ∈ vs → f p = f p' → p = p') :
    ((paramsOf vs).map f).eraseDups = (paramsOf (firstVisits vs)).map f := by
  induction vs using List.reverseRecOn with
  | nil => rfl
  | append_singleton vs v ih =>
    have hvs : ∀ w ∈ vs, w ∈ vs ++ [v] := fun w hw => List.mem_append_left _ hw
    have hv : v ∈ vs ++ [v] := List.mem_append_right _ (List.mem_singleton_self v)
    have ih := ih (fun w hw w' hw' => hid w (hvs w hw) w' (hvs w' hw'))
      (fun p hp p' hp' => hf p (hvs _ hp) p' (hvs _ hp'))
    have hmem : v.id ∈ (firstVisits vs).map Visit.id ↔ v ∈ vs := by
      rw [ids_firstVisits]
      refine ⟨fun h => ?_, fun h => List.mem_map.mpr ⟨v, h, rfl⟩⟩
      obtain ⟨w, hw, hwv⟩ := List.mem_map.mp h
      exact hid w (hvs w hw) v hv hwv ▸ hw
    rw [firstVisits_concat, addVisit, paramsOf_append, List.map_append]
    cases v with
    | ref r =>
      rw [show (paramsOf [.ref r]).map f = [] from rfl, List.append_nil, ih]
      split
      · rfl
      · simp
    | param p =>
      -- the name was there before exactly when the parameter was
      have hname : f p ∈ (paramsOf vs).map f ↔ Visit.param p ∈ vs := by
        refine ⟨fun h => ?_, fun h => List.mem_map.mpr ⟨p, Naming.mem_paramsOf.mpr h, rfl⟩⟩
        obtain ⟨p', hp', heq⟩ := List.mem_map.mp h
        have hp'vs := Naming.mem_paramsOf.mp hp'
        exact hf p' (hvs _ hp'vs) p hv heq ▸ hp'vs
      rw [show (paramsOf [.param p]).map f = [f p] from rfl, eraseDups_concat, ih]
      by_cases hp : Visit.param p ∈ vs
      · rw [if_pos (hname.mpr hp), if_pos (hmem.mpr hp)]
      · rw [if_neg fun h => hp (hname.mp h), if_neg fun h => hp (hmem.mp h), paramsOf_append,
          List.map_append]
        rfl

namespace Naming

variable {s : Settings} {fs : List Visit}

theorem paramIds_sublist (fs : List Visit) :
    ((paramsOf fs).map Param.id).Sublist (fs.map Visit.id) := by
  induction fs with
  | nil => exact .slnil
  | cons v fs ih =>
    cases v with
    | ref r => exact ih.cons _
    | param p => exact ih.cons_cons _

/-- A table has one entry for each parameter: its name and its value. -/
theorem paramTable_eq_map (hnodup : (fs.map Visit.id).Nodup) :
    paramTable s (paramsOf fs)
      = (paramsOf fs).map fun p => (namesOf s fs (.param p), p.value) := by
  have hids : ((paramsOf fs).map Param.id).Nodup := hnodup.sublist (paramIds_sublist fs)
  refine List.ext_getElem (by simp [paramTable]) fun j hj hj' => ?_
  have hlen : j < (paramsOf fs).length := by simpa using hj'
  -- identities do not repeat, so each is found where it stands
  have hindex : ((paramsOf fs).map Param.id).idxOf (paramsOf fs)[j].id = j := by
    have h := hids.idxOf_getElem j (by simpa using hlen)
    rwa [List.getElem_map] at h
  simp [paramTable, namesOf_param, hindex]

theorem nodup_paramTable (s : Settings) (ps : List Param) :
    ((paramTable s ps).map Prod.fst).Nodup := by
  rw [names_paramTable]
  exact List.Nodup.map (fun _ _ => paramText_injective) List.nodup_range

end Naming

/-! ## Stems that can be read -/

/-- Parameter names begin plainly, and aliases with neither a quote nor the sign of a parameter. -/
structure Settings.ReadableStems (s : Settings) : Prop where
  ofParams : isPlain s.paramStem
  ofAliases : ∀ c ∈ s.aliasStem.toList, Inert c
  ofVariables : ∀ c ∈ s.variableStem.toList, Inert c

theorem Naming.readable_namesOf {s : Settings} (hs : s.ReadableStems) (fs vs : List Visit) :
    Readable (namesOf s fs) vs := by
  have hstem : ∀ kind, ∀ c ∈ (stem s kind).toList, Inert c := by
    rintro (_ | _ | _)
    · exact hs.ofAliases
    · exact hs.ofAliases
    · exact hs.ofVariables
  refine ⟨fun r _ => ?_, fun p _ => isPlain_numbered hs.ofParams _⟩
  rw [namesOf_ref, aliasText]
  split
  · exact hstem r.kind
  · rw [String.toList_append]
    exact List.forall_mem_append.mpr ⟨hstem r.kind, fun c hc =>
      inert_of_isPart (isPart_of_isDigit (isDigit_of_mem_toString hc))⟩

/-! ## Builds -/

/-- The table binds the text. The names that a reader finds are those of the table, first ones
first; each has one entry; and an entry has the value of the one parameter that is written by its
name. -/
structure Built.Binds (b : Built) (q : Query) (called : Visit → String) : Prop where
  /-- The parameters of the text, each where it is first met, are the keys of the table. -/
  names : (paramNamesOf b.text).eraseDups = b.params.map Prod.fst
  /-- No key comes twice. -/
  nodup : (b.params.map Prod.fst).Nodup
  /-- A key is the name of one parameter only, and stands for its value. -/
  values : ∀ entry ∈ b.params, ∃ p, .param p ∈ q.visits ∧ called (.param p) = entry.1
    ∧ p.value = entry.2
    ∧ ∀ p', .param p' ∈ q.visits → called (.param p') = entry.1 → p' = p

namespace Query

variable {q : Query} {arena : ArenaId} {s : Settings} {b : Built}

/-- Over one arena the build gives the names that the first visits settle. -/
theorem called_eq_namesOf (ho : q.Over arena) (hb : q.build arena s = .ok b) {v : Visit}
    (hv : v ∈ q.visits) :
    (q.buildIn (.fresh arena s)).2.called v = Naming.namesOf s (firstVisits q.visits) v := by
  obtain ⟨hn, _, harena, _⟩ := build_ok hb
  obtain ⟨name, hname⟩ := Naming.nameAt_visitAll_mem (n := .fresh arena s) hv (harena v hv)
  rw [hn, agrees_namesOf ho v hv name hname, Naming.called, hname]
  rfl

theorem params_eq_paramTable (hb : q.build arena s = .ok b) :
    b.params = Naming.paramTable s (paramsOf (firstVisits q.visits)) := by
  obtain ⟨_, hparams, harena, _⟩ := build_ok hb
  rw [hparams, Naming.visitAll_fresh harena]
  rfl

/-- The table of a build has one entry for each parameter that is visited. -/
theorem params_of_build (hb : q.build arena s = .ok b) :
    b.params = (paramsOf (firstVisits q.visits)).map fun p =>
      (Naming.namesOf s (firstVisits q.visits) (.param p), p.value) := by
  rw [params_eq_paramTable hb]
  exact Naming.paramTable_eq_map (nodup_firstVisits _)

/-- Parameters over one arena are told apart by their names. -/
theorem param_eq_of_name (ho : q.Over arena) {p p' : Param} (hp : .param p ∈ q.visits)
    (hp' : .param p' ∈ q.visits)
    (h : Naming.namesOf s (firstVisits q.visits) (.param p)
      = Naming.namesOf s (firstVisits q.visits) (.param p')) : p = p' :=
  Visit.param.inj (ho.eq_of_id hp hp'
    (Naming.id_eq_of_paramName_eq (ho.mem_firstVisits hp) h))

/-- An entry of the table has the value of the one parameter that is written by its name. -/
theorem param_of_entry (ho : q.Over arena) (hb : q.build arena s = .ok b)
    {entry : String × Json} (h : entry ∈ b.params) :
    ∃ p, .param p ∈ q.visits ∧ (q.buildIn (.fresh arena s)).2.called (.param p) = entry.1
      ∧ p.value = entry.2
      ∧ ∀ p', .param p' ∈ q.visits →
          (q.buildIn (.fresh arena s)).2.called (.param p') = entry.1 → p' = p := by
  rw [params_of_build hb] at h
  obtain ⟨p, hp, rfl⟩ := List.mem_map.mp h
  have hvisit : .param p ∈ q.visits := mem_of_mem_firstVisits (Naming.mem_paramsOf.mp hp)
  refine ⟨p, hvisit, called_eq_namesOf ho hb hvisit, rfl, fun p' hp' hname => ?_⟩
  rw [called_eq_namesOf ho hb hp'] at hname
  exact param_eq_of_name ho hp' hvisit hname

/-- **The text of a build mentions exactly the parameters that its table binds.** -/
theorem binds_of_build (hs : s.ReadableStems) (ho : q.Over arena)
    (hb : q.build arena s = .ok b) : b.Binds q (q.buildIn (.fresh arena s)).2.called := by
  have htext := (build_ok hb).2.2.2 _ (agrees_namesOf ho)
  have hread := paramNames_spell q.separated
    (Naming.readable_namesOf hs (firstVisits q.visits) (mentioned q.pieces))
  have hnames : (paramNamesOf b.text).eraseDups = b.params.map Prod.fst := by
    rw [htext, textUnder, hread, q.echo.params, params_of_build hb, List.map_map]
    exact eraseDups_paramsOf (fun v hv w hw => ho.eq_of_id hv hw)
      fun p hp p' hp' => param_eq_of_name ho hp hp'
  refine ⟨hnames, ?_, fun entry => param_of_entry ho hb⟩
  rw [params_eq_paramTable hb]
  exact Naming.nodup_paramTable _ _

end Query

end GraphQuery
