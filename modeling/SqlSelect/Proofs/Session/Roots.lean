import SqlSelect.Proofs.Session.Builders

/-!
Roots over the calls of a session. Once a root is there, no call removes it, and only a call that
asks for a change of it changes it.
-/
namespace SqlSelect.Session

/-- The root is there: its builder has declared it, or it was made. -/
def has (s : Session) : RootRef → Bool
  | .start h => (s.builders.get h).start?.isSome
  | .joined h i => i < (s.builders.get h).joins.length
  | .loose h => h.index < s.roots.size

/-- The root lies under a handle that was given out. -/
def Given (s : Session) : RootRef → Prop
  | .start h | .joined h _ => h.index < s.builders.size
  | .loose h => h.index < s.roots.size

theorem has_recast {f : TableRoot → TableRoot} {g : Builder → Builder}
    (fits : Builder.Recasts f g) (s : Session) : (s.recast f g).has = s.has := by
  funext ref
  cases ref with
  | start h => simp only [has, recast, Store.get_map, fits.start?_eq, Option.isSome_map]
  | joined h i => simp only [has, recast, Store.get_map, fits.joins_eq, List.length_map]
  | loose h => rfl

theorem has_bare (s : Session) : s.bare.has = s.has := has_recast Builder.recasts_bare s

theorem given_bare (s : Session) (ref : RootRef) : s.bare.Given ref ↔ s.Given ref := by
  cases ref <;> rfl

/-- Of the roots that builders own, those that are not there have no join. -/
theorem has_of_joined {s : Session} {ref : RootRef}
    (loose : ∀ h, ref = .loose h → h.index < s.roots.size)
    (wired : (s.root ref).join?.isSome = true) : s.has ref = true := by
  cases ref with
  | start h =>
    cases begins : (s.builders.get h).start? with
    | none =>
      rw [root, begins] at wired
      cases wired
    | some r => simp [has, begins]
  | joined h i =>
    rcases Nat.lt_or_ge i (s.builders.get h).joins.length with inside | outside
    · exact decide_eq_true inside
    · rw [root, List.getElem?_eq_none outside] at wired
      cases wired
  | loose h => exact decide_eq_true (loose h rfl)

def RootChange.condition? : RootChange → Option Predicate
  | condition p => some p
  | assign _ | attach _ _ _ => none

/-- The change that a call asks for on a root. -/
def Call.changeOn? (ref : RootRef) : Call → Option RootChange
  | .change other c => if other = ref then some c else none
  | _ => none

/-- What a call that succeeds makes of a root, by the change that it asks for. -/
def Turns : Option RootChange → TableRoot → TableRoot → Prop
  | none, r, next => next = r
  | some c, r, next => c.apply r = .ok next

theorem Call.changeOn?_of_spares {h : Handle .builder} {c : Call} (spares : c.Spares h)
    {ref : RootRef} (own : ref = .start h ∨ ∃ i, ref = .joined h i) : c.changeOn? ref = none := by
  cases c with
  | change other c =>
    refine if_neg fun same => ?_
    rw [same] at spares
    rcases own with rfl | ⟨i, rfl⟩
    · exact spares rfl
    · exact spares rfl
  | _ => rfl

section Alters

variable {h : Handle .builder} {b next : Builder} {c : Call} {r : TableRoot}

theorem Call.Alters.start? (alters : c.Alters h b next) (begins : b.start? = some r) :
    ∃ r', next.start? = some r' ∧ Turns (c.changeOn? (.start h)) r r' := by
  cases alters with
  | started plain =>
    obtain ⟨unset, -⟩ := Builder.plainStart_ok plain
    rw [unset] at begins
    cases begins
  | joined plain =>
    obtain ⟨-, _, _, -, -, rfl⟩ := Builder.plainJoin_ok plain
    exact ⟨r, begins, rfl⟩
  | @startRoot c r' changed =>
    rw [Call.changeOn?, if_pos rfl]
    exact ⟨r', by rw [begins]; rfl, changed r begins⟩
  | joinedRoot changed => exact ⟨r, begins, rfl⟩
  | spared spares =>
    rw [Call.changeOn?_of_spares spares (.inl rfl)]
    exact ⟨r, begins, rfl⟩

theorem Call.Alters.joined? {i : Nat} (alters : c.Alters h b next) (there : b.joins[i]? = some r) :
    ∃ r', next.joins[i]? = some r' ∧ Turns (c.changeOn? (.joined h i)) r r' := by
  obtain ⟨inside, -⟩ := List.getElem?_eq_some_iff.1 there
  cases alters with
  | started plain =>
    obtain ⟨-, rfl⟩ := Builder.plainStart_ok plain
    exact ⟨r, there, rfl⟩
  | joined plain =>
    obtain ⟨-, _, _, -, -, rfl⟩ := Builder.plainJoin_ok plain
    exact ⟨r, (List.getElem?_append_left inside).trans there, rfl⟩
  | startRoot changed => exact ⟨r, there, rfl⟩
  | @joinedRoot k c r' changed =>
    by_cases same : k = i
    · subst same
      rw [Call.changeOn?, if_pos rfl]
      exact ⟨r', List.getElem?_set_self inside, changed r there⟩
    · have other : (.joined h k : RootRef) ≠ .joined h i := by simpa using same
      rw [Call.changeOn?, if_neg other]
      exact ⟨r, (List.getElem?_set_ne same).trans there, rfl⟩
  | spared spares =>
    rw [Call.changeOn?_of_spares spares (.inr ⟨i, rfl⟩)]
    exact ⟨r, there, rfl⟩

end Alters

section Meaning

variable {s t : Session} {c : Call} {a : Answer} {ref : RootRef}

theorem size_roots_of_meaning (meant : c.meaning s = .ok (a, t)) : s.roots.size ≤ t.roots.size := by
  cases leaves_of_meaning meant with
  | newRoot => exact Nat.le_succ _
  | @change ref => cases ref <;> exact Nat.le_refl _
  | _ => exact Nat.le_refl _

theorem Given.meaning (given : s.Given ref) (meant : c.meaning s = .ok (a, t)) : t.Given ref := by
  cases ref with
  | start | joined => exact Nat.lt_of_lt_of_le given (size_builders_of_meaning meant)
  | loose => exact Nat.lt_of_lt_of_le given (size_roots_of_meaning meant)

theorem loose_of_meaning {h : Handle .root} (meant : c.meaning s = .ok (a, t))
    (given : h.index < s.roots.size) :
    Turns (c.changeOn? (.loose h)) (s.roots.get h) (t.roots.get h) := by
  cases leaves_of_meaning meant with
  | newRoot r =>
    have old : h ≠ ⟨s.roots.size⟩ := by
      rintro rfl
      exact Nat.lt_irrefl _ given
    exact Store.get_set_of_ne _ old r
  | @change other c r changed =>
    cases other with
    | start | joined => rfl
    | loose k =>
      by_cases same : k = h
      · subst same
        rw [Call.changeOn?, if_pos rfl, setRoot, Store.get_set_self]
        exact changed
      · have other : (.loose k : RootRef) ≠ .loose h := by simpa using same
        rw [Call.changeOn?, if_neg other, setRoot, Store.get_set_of_ne _ (Ne.symm same)]
        rfl
  | same looks =>
    cases c with
    | change => exact looks.elim
    | _ => rfl
  | _ => rfl

/-- A root stays where it is, and is as before unless the call changes it. -/
theorem root_of_meaning (meant : c.meaning s = .ok (a, t)) (given : s.Given ref)
    (there : s.has ref = true) :
    t.has ref = true ∧ Turns (c.changeOn? ref) (s.root ref) (t.root ref) := by
  have alters {h : Handle .builder} (given : h.index < s.builders.size) :
      c.Alters h (s.builders.get h) (t.builders.get h) := by
    rcases alters_of_meaning meant h with ⟨rfl, -⟩ | alters
    · exact absurd given (Nat.lt_irrefl _)
    · exact alters
  cases ref with
  | start h =>
    obtain ⟨r, begins⟩ := Option.isSome_iff_exists.1 there
    obtain ⟨r', begins', turns⟩ := (alters given).start? begins
    rw [has, root, root, begins, begins']
    exact ⟨rfl, turns⟩
  | joined h i =>
    have inside := List.getElem?_eq_getElem (of_decide_eq_true there)
    obtain ⟨r', inside', turns⟩ := (alters given).joined? inside
    obtain ⟨least, -⟩ := List.getElem?_eq_some_iff.1 inside'
    rw [root, root, inside, inside']
    exact ⟨decide_eq_true least, turns⟩
  | loose h =>
    have kept : t.Given (.loose h) := Given.meaning given meant
    exact ⟨decide_eq_true kept, loose_of_meaning meant given⟩

theorem Given.next (sound : s.Sound) (given : s.Given ref) (c : Call) : (s.next c).Given ref := by
  rw [← given_bare] at given ⊢
  rcases next_cases sound c with ⟨a, -, meant⟩ | ⟨e, -, left⟩
  · exact given.meaning meant
  · rwa [left]

end Meaning

end SqlSelect.Session
