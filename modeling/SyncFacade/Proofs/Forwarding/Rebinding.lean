import SyncFacade.Proofs.Forwarding.Argument

/-! A call that binds to a signature can be made again from what it bound: the arguments that pass the
parameters on evaluate to a call, and that call binds the same environment. The step from written
arguments to values goes parameter by parameter; the one back to parameters needs the signature's
order, since nothing but its position says which parameter a value is for. -/
namespace SyncFacade

variable {V : Type} {ps : List Parameter} {held : Parameter → Held V} {p q : Parameter}

theorem lookup_eq_some_of_mem {β : Type} {l : List (String × β)} {k : String} {b : β}
    (distinct : (l.map Prod.fst).Nodup) (member : (k, b) ∈ l) : l.lookup k = some b := by
  obtain ⟨before, after, rfl⟩ := List.append_of_mem member
  refine List.lookup_eq_some_iff.mpr ⟨before, after, rfl, ?_⟩
  intro e earlier
  rw [List.map_append, List.nodup_append] at distinct
  have differs := distinct.2.2 e.1 (List.mem_map_of_mem earlier) k (by simp)
  simpa using Ne.symm differs

theorem flatMap_eq_of_unique {α β : Type} {l : List α} {f : α → List β} {a : α} (distinct : l.Nodup)
    (member : a ∈ l) (others : ∀ b ∈ l, b ≠ a → f b = []) : l.flatMap f = f a := by
  obtain ⟨before, after, rfl⟩ := List.append_of_mem member
  rw [List.nodup_append] at distinct
  obtain ⟨_, rest, apart⟩ := distinct
  have first : before.flatMap f = [] := by
    rw [List.flatMap_eq_nil_iff]
    intro b earlier
    exact others b (by simp [earlier]) (apart b earlier a List.mem_cons_self)
  have last : after.flatMap f = [] := by
    rw [List.flatMap_eq_nil_iff]
    intro b later
    refine others b (by simp [later]) ?_
    rintro rfl
    exact (List.nodup_cons.mp rest).1 later
  rw [List.flatMap_append, List.flatMap_cons, first, last, List.nil_append, List.append_nil]

namespace Signature

theorem nodup (sig : Signature ps) : ps.Nodup := sig.distinct.of_map Parameter.name

theorem eq_of_name (sig : Signature ps) (first : p ∈ ps) (second : q ∈ ps) (same : p.name = q.name) :
    p = q :=
  List.inj_on_of_nodup_map sig.distinct first second same

/-- Of the kinds that collect there is one parameter at most. -/
theorem eq_of_collects (sig : Signature ps) (first : p ∈ ps) (second : q ∈ ps)
    (same : p.kind = q.kind) (collects : p.kind.collects = true) : p = q := by
  have never : ¬ p.kind.MayPrecede p.kind := by simp [ParameterKind.MayPrecede, collects]
  obtain ⟨before, after, rfl⟩ := List.append_of_mem first
  have ordered := sig.ordered
  rw [List.pairwise_append, List.pairwise_cons] at ordered
  obtain ⟨_, ⟨following, _⟩, preceding⟩ := ordered
  rcases List.mem_append.mp second with earlier | here
  · exact absurd (same ▸ preceding q earlier p List.mem_cons_self) never
  · rcases List.mem_cons.mp here with rfl | later
    · rfl
    · exact absurd (same ▸ following q later) never

end Signature

/-- What the argument for a parameter adds to the positional values of a call. -/
def positionalShare (p : Parameter) (h : Held V) : List V :=
  match p.kind, h with
  | .positionalOnly, .value v => [v]
  | .positionalOrKeyword, .value v => [v]
  | .extraPositional, .sequence vs => vs
  | _, _ => []

/-- What the argument for a parameter adds to the keywords of a call. -/
def keywordShare (p : Parameter) (h : Held V) : List (String × V) :=
  match p.kind, h with
  | .keywordOnly, .value v => [(p.name, v)]
  | .extraKeyword, .mapping entries => entries
  | _, _ => []

theorem lookup_environment (sig : Signature ps) (member : p ∈ ps) :
    (environment ps held).lookup p.name = some (held p) := by
  apply lookup_eq_some_of_mem
  · have names : (environment ps held).map Prod.fst = ps.map Parameter.name := by
      simp [environment]
    rw [names]
    exact sig.distinct
  · exact List.mem_map_of_mem (f := fun p : Parameter => (p.name, held p)) member

theorem positionalValues_forwarding (sig : Signature ps) (fits : Fits ps held) (member : p ∈ ps) :
    (Argument.forwarding p).positionalValues (environment ps held) =
      some (positionalShare p (held p)) := by
  have found : (environment ps held).lookup p.name = some (held p) := lookup_environment sig member
  cases kind : p.kind with
  | positionalOnly | positionalOrKeyword =>
    obtain ⟨v, holds⟩ := fits.value p member (by simp [kind, ParameterKind.collects])
    simp [Argument.forwarding, Argument.positionalValues, positionalShare, kind, found, holds]
  | extraPositional =>
    obtain ⟨vs, holds⟩ := fits.sequence p member kind
    simp [Argument.forwarding, Argument.positionalValues, positionalShare, kind, found, holds]
  | keywordOnly | extraKeyword =>
    simp [Argument.forwarding, Argument.positionalValues, positionalShare, kind]

theorem keywordValues_forwarding (sig : Signature ps) (fits : Fits ps held) (member : p ∈ ps) :
    (Argument.forwarding p).keywordValues (environment ps held) =
      some (keywordShare p (held p)) := by
  have found : (environment ps held).lookup p.name = some (held p) := lookup_environment sig member
  cases kind : p.kind with
  | positionalOnly | positionalOrKeyword | extraPositional =>
    simp [Argument.forwarding, Argument.keywordValues, keywordShare, kind]
  | keywordOnly =>
    obtain ⟨v, holds⟩ := fits.value p member (by simp [kind, ParameterKind.collects])
    simp [Argument.forwarding, Argument.keywordValues, keywordShare, kind, found, holds]
  | extraKeyword =>
    obtain ⟨entries, holds, _⟩ := fits.mapping p member kind
    simp [Argument.forwarding, Argument.keywordValues, keywordShare, kind, found, holds]

theorem mem_keywordShare (fits : Fits ps held) (member : p ∈ ps) {e : String × V}
    (among : e ∈ keywordShare p (held p)) :
    p.kind = .keywordOnly ∧ e.1 = p.name ∨
      p.kind = .extraKeyword ∧ Arguments.named ps e.1 = false := by
  cases kind : p.kind with
  | positionalOnly | positionalOrKeyword | extraPositional => simp [keywordShare, kind] at among
  | keywordOnly =>
    obtain ⟨v, holds⟩ := fits.value p member (by simp [kind, ParameterKind.collects])
    simp only [keywordShare, kind, holds, List.mem_singleton] at among
    exact Or.inl ⟨rfl, by rw [among]⟩
  | extraKeyword =>
    obtain ⟨entries, holds, _, unnamed⟩ := fits.mapping p member kind
    simp only [keywordShare, kind, holds] at among
    exact Or.inr ⟨rfl, unnamed e among⟩

theorem named_of_mem (member : p ∈ ps) (named : p.kind.takesName = true) :
    Arguments.named ps p.name = true :=
  List.any_eq_true.mpr ⟨p, member, by simp [named]⟩

theorem keywordShare_distinct (fits : Fits ps held) (member : p ∈ ps) :
    ((keywordShare p (held p)).map Prod.fst).Nodup := by
  cases kind : p.kind with
  | positionalOnly | positionalOrKeyword | extraPositional => simp [keywordShare, kind]
  | keywordOnly =>
    obtain ⟨v, holds⟩ := fits.value p member (by simp [kind, ParameterKind.collects])
    simp [keywordShare, kind, holds]
  | extraKeyword =>
    obtain ⟨entries, holds, distinct, _⟩ := fits.mapping p member kind
    simpa only [keywordShare, kind, holds] using distinct

/-- No keyword comes twice: what a collector holds has no name of a parameter, and only one collects. -/
theorem keywordShares_disjoint (sig : Signature ps) (fits : Fits ps held) (first : p ∈ ps)
    (second : q ∈ ps) (differs : p ≠ q) {e d : String × V} (left : e ∈ keywordShare p (held p))
    (right : d ∈ keywordShare q (held q)) : e.1 ≠ d.1 := by
  intro same
  rcases mem_keywordShare fits first left with ⟨kindP, nameP⟩ | ⟨kindP, unnamedP⟩ <;>
    rcases mem_keywordShare fits second right with ⟨kindQ, nameQ⟩ | ⟨kindQ, unnamedQ⟩
  · exact differs (sig.eq_of_name first second (by rw [← nameP, ← nameQ, same]))
  · have named := named_of_mem first (by simp [kindP, ParameterKind.takesName])
    rw [← nameP, same, unnamedQ] at named
    contradiction
  · have named := named_of_mem second (by simp [kindQ, ParameterKind.takesName])
    rw [← nameQ, ← same, unnamedP] at named
    contradiction
  · exact differs (sig.eq_of_collects first second (kindP.trans kindQ.symm)
      (by simp [kindP, ParameterKind.collects]))

theorem forwarded_distinct (sig : Signature ps) (fits : Fits ps held) :
    ((ps.flatMap fun p => keywordShare p (held p)).map Prod.fst).Nodup := by
  rw [List.map_flatMap, List.nodup_flatMap]
  refine ⟨fun p member => keywordShare_distinct fits member, ?_⟩
  refine List.Pairwise.imp_of_mem ?_ sig.nodup
  intro p q first second differs
  rw [Function.onFun_apply, List.disjoint_left]
  intro name left right
  obtain ⟨e, among, rfl⟩ := List.mem_map.mp left
  obtain ⟨d, amongToo, same⟩ := List.mem_map.mp right
  exact keywordShares_disjoint sig fits first second differs among amongToo same.symm

/-- The call that passes on what the parameters hold. -/
def forwarded (sig : Signature ps) (fits : Fits ps held) : Arguments V where
  positional := ps.flatMap fun p => positionalShare p (held p)
  keywords := ps.flatMap fun p => keywordShare p (held p)
  distinct := forwarded_distinct sig fits

theorem evaluate_forwarding (sig : Signature ps) (fits : Fits ps held) :
    Argument.evaluate (environment ps held) (ps.map Argument.forwarding) =
      some (forwarded sig fits) := by
  have positional : (ps.map Argument.forwarding).mapM
      (Argument.positionalValues (environment ps held)) =
        some (ps.map fun p => positionalShare p (held p)) := by
    rw [List.mapM_map]
    exact mapM_eq_pure fun p member => positionalValues_forwarding sig fits member
  have keywords : (ps.map Argument.forwarding).mapM
      (Argument.keywordValues (environment ps held)) =
        some (ps.map fun p => keywordShare p (held p)) := by
    rw [List.mapM_map]
    exact mapM_eq_pure fun p member => keywordValues_forwarding sig fits member
  have distinct : ((ps.map fun p => keywordShare p (held p)).flatten.map Prod.fst).Nodup := by
    rw [← List.flatMap_def]
    exact forwarded_distinct sig fits
  simp only [Argument.evaluate, positional, keywords, Option.bind_eq_bind, Option.bind_some,
    dif_pos distinct]
  simp only [forwarded, List.flatMap_def]

/-- What a collector of positional values adds to a call. -/
def collectedShare (p : Parameter) (h : Held V) : List V :=
  if p.kind = .extraPositional then positionalShare p h else []

/-- The values that a collector holds come behind those of all parameters that take a position. -/
theorem positionalShares_split (ordered : ps.Pairwise fun p q => p.kind.MayPrecede q.kind) :
    (ps.flatMap fun p => positionalShare p (held p)) =
      ((positionalPart ps).flatMap fun p => positionalShare p (held p)) ++
        ps.flatMap fun p => collectedShare p (held p) := by
  induction ps with
  | nil => rfl
  | cons p rest ih =>
    obtain ⟨following, ordered⟩ := List.pairwise_cons.mp ordered
    rw [List.flatMap_cons, List.flatMap_cons, ih ordered]
    cases kind : p.kind with
    | positionalOnly | positionalOrKeyword =>
      have taken : positionalPart (p :: rest) = p :: positionalPart rest := by
        simp [positionalPart, kind, ParameterKind.takesPosition]
      rw [taken, List.flatMap_cons, List.append_assoc]
      simp [collectedShare, kind]
    | extraPositional =>
      -- nothing behind a collector takes a position, so its values need not be moved past any
      have none_left : positionalPart rest = [] := by
        apply List.filter_eq_nil_iff.mpr
        intro q later
        have order := following q later
        cases next : q.kind <;>
          simp_all [ParameterKind.MayPrecede, ParameterKind.rank, ParameterKind.takesPosition,
            ParameterKind.collects]
      have skipped : positionalPart (p :: rest) = positionalPart rest := by
        simp [positionalPart, kind, ParameterKind.takesPosition]
      rw [skipped, none_left]
      simp [collectedShare, kind]
    | keywordOnly | extraKeyword =>
      have skipped : positionalPart (p :: rest) = positionalPart rest := by
        simp [positionalPart, kind, ParameterKind.takesPosition]
      rw [skipped]
      simp [collectedShare, positionalShare, kind]

theorem positionalShare_value {v : V} (takes : p.kind.takesPosition = true)
    (holds : held p = .value v) : positionalShare p (held p) = [v] := by
  cases kind : p.kind <;> simp_all [positionalShare, ParameterKind.takesPosition]

/-- Values in the order of their parameters meet the parameters again. -/
theorem zip_shares (takes : ∀ p ∈ ps, p.kind.takesPosition = true)
    (values : ∀ p ∈ ps, ∃ v, held p = .value v) (rest : List V) :
    (∀ p ∈ ps, ∀ v, held p = .value v → (p.name, v) ∈ (ps.map Parameter.name).zip
      ((ps.flatMap fun p => positionalShare p (held p)) ++ rest)) ∧
      ((ps.flatMap fun p => positionalShare p (held p)) ++ rest).drop ps.length = rest := by
  induction ps with
  | nil => exact ⟨by simp, rfl⟩
  | cons p tail ih =>
    obtain ⟨v, holds⟩ := values p List.mem_cons_self
    obtain ⟨met, left⟩ := ih (fun q later => takes q (List.mem_cons_of_mem p later))
      (fun q later => values q (List.mem_cons_of_mem p later))
    have share := positionalShare_value (takes p List.mem_cons_self) holds
    simp only [List.flatMap_cons, share, List.cons_append, List.nil_append, List.map_cons,
      List.zip_cons_cons, List.length_cons, List.drop_succ_cons]
    refine ⟨?_, left⟩
    intro q member w holdsQ
    rcases List.mem_cons.mp member with rfl | later
    · rw [holds] at holdsQ
      cases holdsQ
      exact List.mem_cons_self
    · exact List.mem_cons_of_mem _ (met q later w holdsQ)

theorem positionalPart_met (fits : Fits ps held) (rest : List V) :
    (∀ p ∈ positionalPart ps, ∀ v, held p = .value v →
      (p.name, v) ∈ ((positionalPart ps).map Parameter.name).zip
        (((positionalPart ps).flatMap fun p => positionalShare p (held p)) ++ rest)) ∧
      (((positionalPart ps).flatMap fun p => positionalShare p (held p)) ++ rest).drop
        (positionalPart ps).length = rest := by
  apply zip_shares
  · intro p among
    exact (List.mem_filter.mp among).2
  · intro p among
    obtain ⟨member, takes⟩ := List.mem_filter.mp among
    apply fits.value p member
    cases kind : p.kind <;> simp_all [ParameterKind.takesPosition, ParameterKind.collects]

theorem zip_keys_sublist {β : Type} (names : List String) (vs : List β) :
    ((names.zip vs).map Prod.fst).Sublist names := by
  induction names generalizing vs with
  | nil => simp
  | cons name rest ih =>
    cases vs with
    | nil => simp
    | cons v vs =>
      rw [List.zip_cons_cons, List.map_cons]
      exact (ih vs).cons_cons name

namespace Arguments

theorem slots_keys_sublist (a : Arguments V) (ps : List Parameter) :
    ((a.slots ps).map Prod.fst).Sublist ((positionalPart ps).map Parameter.name) :=
  zip_keys_sublist _ _

theorem slots_distinct (sig : Signature ps) (a : Arguments V) :
    ((a.slots ps).map Prod.fst).Nodup :=
  (sig.distinct.sublist (List.filter_sublist.map Parameter.name)).sublist (a.slots_keys_sublist ps)

theorem slots_lookup_none (sig : Signature ps) (member : p ∈ ps)
    (other : p.kind.takesPosition = false) (a : Arguments V) : (a.slots ps).lookup p.name = none := by
  rw [List.lookup_eq_none_iff]
  intro e among
  have listed := (a.slots_keys_sublist ps).subset (List.mem_map_of_mem among)
  obtain ⟨q, taken, same⟩ := List.mem_map.mp listed
  obtain ⟨memberQ, takes⟩ := List.mem_filter.mp taken
  have differs : p.name ≠ e.1 := by
    rw [← same]
    intro equal
    rw [sig.eq_of_name member memberQ equal, takes] at other
    contradiction
  simpa using differs

end Arguments

theorem surplusShare_eq_nil (fits : Fits ps held) (member : p ∈ ps) (kind : p.kind ≠ .extraKeyword) :
    ((keywordShare p (held p)).filter fun e => !Arguments.named ps e.1) = [] := by
  apply List.filter_eq_nil_iff.mpr
  intro e among
  rcases mem_keywordShare fits member among with ⟨kindP, name⟩ | ⟨kindP, _⟩
  · have named := named_of_mem member (by simp [kindP, ParameterKind.takesName])
    simp [name, named]
  · exact absurd kindP kind

section Forwarded

variable (sig : Signature ps) (fits : Fits ps held)
include sig fits

theorem forwarded_positional : (forwarded sig fits).positional =
    ((positionalPart ps).flatMap fun p => positionalShare p (held p)) ++
      ps.flatMap fun p => collectedShare p (held p) :=
  positionalShares_split sig.ordered

theorem forwarded_slot {v : V} (member : p ∈ ps) (takes : p.kind.takesPosition = true)
    (holds : held p = .value v) : ((forwarded sig fits).slots ps).lookup p.name = some v := by
  apply lookup_eq_some_of_mem (Arguments.slots_distinct sig _)
  have met := (positionalPart_met fits (ps.flatMap fun p => collectedShare p (held p))).1 p
    (List.mem_filter.mpr ⟨member, takes⟩) v holds
  rwa [← forwarded_positional sig fits] at met

theorem forwarded_surplusPositional : (forwarded sig fits).surplusPositional ps =
    ps.flatMap fun p => collectedShare p (held p) := by
  rw [Arguments.surplusPositional, forwarded_positional]
  exact (positionalPart_met fits _).2

theorem forwarded_sequence {vs : List V} (member : p ∈ ps) (kind : p.kind = .extraPositional)
    (holds : held p = .sequence vs) : (forwarded sig fits).surplusPositional ps = vs := by
  rw [forwarded_surplusPositional, flatMap_eq_of_unique sig.nodup member]
  · simp [collectedShare, positionalShare, kind, holds]
  · intro q memberQ differs
    rw [collectedShare, if_neg]
    intro kindQ
    exact differs (sig.eq_of_collects memberQ member (kindQ.trans kind.symm)
      (by simp [kindQ, ParameterKind.collects]))

theorem forwarded_surplusKeywords : (forwarded sig fits).surplusKeywords ps =
    ps.flatMap fun p => (keywordShare p (held p)).filter fun e => !Arguments.named ps e.1 :=
  List.filter_flatMap

theorem forwarded_mapping {entries : List (String × V)} (member : p ∈ ps)
    (kind : p.kind = .extraKeyword) (holds : held p = .mapping entries) :
    (forwarded sig fits).surplusKeywords ps = entries := by
  have share : keywordShare p (held p) = entries := by simp [keywordShare, kind, holds]
  rw [forwarded_surplusKeywords, flatMap_eq_of_unique sig.nodup member, share]
  · apply List.filter_eq_self.mpr
    intro e among
    rcases mem_keywordShare fits member (share.symm ▸ among) with ⟨kindP, _⟩ | ⟨_, unnamed⟩
    · rw [kind] at kindP
      contradiction
    · simp [unnamed]
  · intro q memberQ differs
    apply surplusShare_eq_nil fits memberQ
    intro kindQ
    exact differs (sig.eq_of_collects memberQ member (kindQ.trans kind.symm)
      (by simp [kindQ, ParameterKind.collects]))

/-- Nothing is left over that a signature could refuse. -/
theorem forwarded_accepted : (forwarded sig fits).refusal ps = none := by
  have positional : ps.all (·.kind ≠ .extraPositional) = true →
      (forwarded sig fits).surplusPositional ps = [] := by
    intro without
    rw [forwarded_surplusPositional, List.flatMap_eq_nil_iff]
    intro p member
    have kind := List.all_eq_true.mp without p member
    rw [collectedShare, if_neg (by simpa using kind)]
  have keywords : ps.all (·.kind ≠ .extraKeyword) = true →
      (forwarded sig fits).surplusKeywords ps = [] := by
    intro without
    rw [forwarded_surplusKeywords, List.flatMap_eq_nil_iff]
    intro p member
    have kind := List.all_eq_true.mp without p member
    exact surplusShare_eq_nil fits member (by simpa using kind)
  unfold Arguments.refusal
  split
  · rename_i refused
    rw [Bool.and_eq_true] at refused
    rw [positional refused.2] at refused
    simp at refused
  · split
    · rename_i without
      rw [keywords without]
      rfl
    · rfl

theorem forwarded_keyword {v : V} (member : p ∈ ps) (kind : p.kind = .keywordOnly)
    (holds : held p = .value v) : (forwarded sig fits).keywords.lookup p.name = some v := by
  apply lookup_eq_some_of_mem (forwarded sig fits).distinct
  exact List.mem_flatMap.mpr ⟨p, member, by simp [keywordShare, kind, holds]⟩

/-- A parameter that was passed by position is not passed by name as well. -/
theorem forwarded_keyword_none (member : p ∈ ps) (kind : p.kind = .positionalOrKeyword) :
    (forwarded sig fits).keywords.lookup p.name = none := by
  rw [List.lookup_eq_none_iff]
  intro e among
  obtain ⟨q, memberQ, share⟩ := List.mem_flatMap.mp among
  have differs : p.name ≠ e.1 := by
    intro same
    rcases mem_keywordShare fits memberQ share with ⟨kindQ, name⟩ | ⟨_, unnamed⟩
    · rw [sig.eq_of_name member memberQ (same.trans name), kindQ] at kind
      contradiction
    · rw [← same, named_of_mem member (by simp [kind, ParameterKind.takesName])] at unnamed
      contradiction
  simpa using differs

theorem forwarded_heldBy (defaults : String → V) (member : p ∈ ps) :
    (forwarded sig fits).heldBy defaults ps p = .ok (held p) := by
  cases kind : p.kind with
  | positionalOnly =>
    obtain ⟨v, holds⟩ := fits.value p member (by simp [kind, ParameterKind.collects])
    have slot := forwarded_slot sig fits member (by simp [kind, ParameterKind.takesPosition]) holds
    simp [Arguments.heldBy, Arguments.valueFor, kind, ParameterKind.takesName, slot, holds,
      Except.map]
  | positionalOrKeyword =>
    obtain ⟨v, holds⟩ := fits.value p member (by simp [kind, ParameterKind.collects])
    have slot := forwarded_slot sig fits member (by simp [kind, ParameterKind.takesPosition]) holds
    have keyword := forwarded_keyword_none sig fits member kind
    simp [Arguments.heldBy, Arguments.valueFor, kind, ParameterKind.takesName, slot, keyword, holds,
      Except.map]
  | extraPositional =>
    obtain ⟨vs, holds⟩ := fits.sequence p member kind
    simp [Arguments.heldBy, kind, forwarded_sequence sig fits member kind holds, holds]
  | keywordOnly =>
    obtain ⟨v, holds⟩ := fits.value p member (by simp [kind, ParameterKind.collects])
    have slot := Arguments.slots_lookup_none sig member
      (by simp [kind, ParameterKind.takesPosition]) (forwarded sig fits)
    have keyword := forwarded_keyword sig fits member kind holds
    simp [Arguments.heldBy, Arguments.valueFor, kind, ParameterKind.takesName, slot, keyword, holds,
      Except.map]
  | extraKeyword =>
    obtain ⟨entries, holds, _⟩ := fits.mapping p member kind
    simp [Arguments.heldBy, kind, forwarded_mapping sig fits member kind holds, holds]

/-- Whatever the defaults are, the call leaves none of them to be used. -/
theorem forwarded_bind (defaults : String → V) :
    (forwarded sig fits).bind defaults ps = .ok (environment ps held) := by
  simp only [Arguments.bind, forwarded_accepted]
  apply mapM_eq_pure
  intro p member
  rw [forwarded_heldBy sig fits defaults member]
  rfl

end Forwarded

/-- Forwarding is transparent: where a call binds, the arguments written for its parameters are in
order, make a call, and that call binds the same environment again. The callee can have other values
for its defaults. If the names are names, the text of the arguments is read as just these. -/
theorem forwarding_binds_same (sig : Signature ps) {call : Arguments V} {defaults : String → V}
    {env : Environment V} (bound : call.bind defaults ps = .ok env) (others : String → V) :
    ∃ arguments again, Argument.textOfAll arguments = Parameter.renderArguments ps ∧
      ((∀ p ∈ ps, Argument.isName p.name.toList = true) →
        Argument.readAll (Parameter.renderArguments ps) = some arguments) ∧
      Argument.Ordered arguments ∧ Argument.evaluate env arguments = some again ∧
      again.bind others ps = .ok env := by
  obtain ⟨held, fits, rfl⟩ := Arguments.bind_fits bound
  refine ⟨ps.map Argument.forwarding, forwarded sig fits, Argument.textOfAll_forwarding ps, ?_,
    Argument.ordered_forwarding sig, evaluate_forwarding sig fits, forwarded_bind sig fits others⟩
  intro names
  rw [← Argument.textOfAll_forwarding]
  apply Argument.readAll_textOfAll
  intro a among
  obtain ⟨p, member, rfl⟩ := List.mem_map.mp among
  exact Argument.plain_forwarding (names p member)

/-- Parameters of every kind, two of them with defaults. -/
def everyKind : List Parameter :=
  [{ name := "a", kind := .positionalOnly }, { name := "b" }, { name := "c", default := some "7" },
    { name := "rest", kind := .extraPositional }, { name := "d", kind := .keywordOnly },
    { name := "e", kind := .keywordOnly, default := some "9" },
    { name := "more", kind := .extraKeyword }]

/-- Five values by position and two by name, of which one has the name of a positional parameter. -/
def mixedCall : Arguments Nat :=
  { positional := [1, 2, 3, 4, 5], keywords := [("a", 8), ("d", 6)], distinct := by decide }

def mixedEnvironment : Environment Nat :=
  [("a", .value 1), ("b", .value 2), ("c", .value 3), ("rest", .sequence [4, 5]), ("d", .value 6),
    ("e", .value 9), ("more", .mapping [("a", 8)])]

theorem forwarding_binds_same_every_kind :
    Signature everyKind ∧
      mixedCall.bind (fun d => if d = "9" then 9 else 7) everyKind = .ok mixedEnvironment ∧
      ∃ arguments again, Argument.textOfAll arguments = Parameter.renderArguments everyKind ∧
        ((∀ p ∈ everyKind, Argument.isName p.name.toList = true) →
          Argument.readAll (Parameter.renderArguments everyKind) = some arguments) ∧
        Argument.Ordered arguments ∧
        Argument.evaluate mixedEnvironment arguments = some again ∧
        again.bind (fun _ => 0) everyKind = .ok mixedEnvironment := by
  have sig : Signature everyKind := ⟨by decide, by decide⟩
  have bound : mixedCall.bind (fun d => if d = "9" then 9 else 7) everyKind =
      .ok mixedEnvironment := by rfl
  exact ⟨sig, bound, forwarding_binds_same sig bound fun _ => 0⟩

end SyncFacade
