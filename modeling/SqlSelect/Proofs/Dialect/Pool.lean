import SqlSelect.Proofs.Session.Meaning

/-!
The dialects of a pool as objects. While nothing clears the pool it goes on sharing what it shares,
a dialect that it has stopped to share or never shared does not come back, and every dialect that it
makes is a new one.
-/
namespace SqlSelect

/-- The names that a database goes by. -/
inductive Database.Named : Database → String → Prop
  | mysql : Named .mysql "mysql"
  | mariadb : Named .mysql "mariadb"
  | postgresql : Named .postgresql "postgresql"
  | postgres : Named .postgresql "postgres"

namespace DialectPool

theorem database_eq_ok {name : String} {database : Database} :
    DialectPool.database name = .ok database ↔ database.Named name := by
  constructor
  · intro known
    unfold DialectPool.database Database.ofName? at known
    split at known
    · next found =>
      obtain rfl := Except.ok.inj known
      split at found <;> cases found <;> constructor
    · cases known
  · intro named
    cases named <;> rfl

theorem database_of_unnamed {name : String}
    (unnamed : ∀ database : Database, ¬ database.Named name) :
    DialectPool.database name = .error (.databaseUnknown name) := by
  cases known : DialectPool.database name with
  | ok database => exact absurd (database_eq_ok.1 known) (unnamed database)
  | error e =>
    unfold DialectPool.database at known
    split at known
    · cases known
    · exact known.symm

/-- What a pool can become: no number is issued twice, and what is shared new is numbered new. -/
structure Later (p q : DialectPool) : Prop where
  issued : p.issued ≤ q.issued
  origin : ∀ database d, q.shared? database = some d →
    p.shared? database = some d ∨ p.issued ≤ d.serial ∧ d.serial < q.issued

/-- What a pool can become without being cleared. -/
structure Grows (p q : DialectPool) : Prop extends Later p q where
  kept : ∀ database d, p.shared? database = some d → q.shared? database = some d

/-- No dialect that is shared has a number that is still to be issued. -/
def Numbered (p : DialectPool) : Prop :=
  ∀ database d, p.shared? database = some d → d.serial < p.issued

/-- The dialect has been made before and is not shared. -/
structure Gone (p : DialectPool) (d : Dialect) : Prop where
  made : d.serial < p.issued
  unshared : ∀ database, p.shared? database ≠ some d

section Steps

variable {p q r : DialectPool} {database : Database} {d : Dialect}

theorem Later.trans (first : p.Later q) (second : q.Later r) : p.Later r where
  issued := Nat.le_trans first.issued second.issued
  origin database d shared := by
    rcases second.origin database d shared with before | ⟨new, made⟩
    · rcases first.origin database d before with before | ⟨new, made⟩
      · exact .inl before
      · exact .inr ⟨new, Nat.lt_of_lt_of_le made second.issued⟩
    · exact .inr ⟨Nat.le_trans first.issued new, made⟩

theorem Grows.refl (p : DialectPool) : p.Grows p :=
  ⟨⟨Nat.le_refl _, fun _ _ => .inl⟩, fun _ _ => id⟩

theorem Grows.trans (first : p.Grows q) (second : q.Grows r) : p.Grows r :=
  ⟨first.toLater.trans second.toLater, fun database d shared =>
    second.kept database d (first.kept database d shared)⟩

theorem later_clear (p : DialectPool) : p.Later p.clear :=
  ⟨Nat.le_refl _, fun _ _ shared => nomatch shared⟩

theorem Numbered.later (numbered : p.Numbered) (later : p.Later q) : q.Numbered := by
  intro database d shared
  rcases later.origin database d shared with before | ⟨-, made⟩
  · exact Nat.lt_of_lt_of_le (numbered database d before) later.issued
  · exact made

theorem Gone.later (gone : p.Gone d) (later : p.Later q) : q.Gone d := by
  refine ⟨Nat.lt_of_lt_of_le gone.made later.issued, fun database shared => ?_⟩
  rcases later.origin database d shared with before | ⟨new, -⟩
  · exact gone.unshared database before
  · exact absurd gone.made (Nat.not_lt_of_le new)

theorem Numbered.gone_clear (numbered : p.Numbered) (shared : p.shared? database = some d) :
    p.clear.Gone d :=
  ⟨numbered database d shared, fun _ shared => nomatch shared⟩

theorem grows_sharedDialect (loggers : Loggers) (p : DialectPool) (database : Database) :
    p.Grows ((sharedDialect database).runWith loggers p).state := by
  simp only [sharedDialect, Action.runWith]
  cases known : p.shared? database with
  | some d => exact .refl p
  | none =>
    refine ⟨⟨Nat.le_succ _, fun other d shared => ?_⟩, fun other d shared => ?_⟩
    · dsimp only [share, issue] at shared
      split at shared
      · cases shared
        exact .inr ⟨Nat.le_refl _, Nat.lt_succ_self _⟩
      · exact .inl shared
    · have others : other ≠ database := by
        rintro rfl
        cases known.symm.trans shared
      exact (if_neg others).trans shared

theorem grows_freshDialect (loggers : Loggers) (p : DialectPool) (database : Database) :
    p.Grows ((freshDialect database).runWith loggers p).state :=
  ⟨⟨Nat.le_succ _, fun _ _ => .inl⟩, fun _ _ => id⟩

theorem grows_named {loggers : Loggers} {f : Database → Action DialectPool Dialect}
    (grows : ∀ database, p.Grows ((f database).runWith loggers p).state) (name : String) :
    p.Grows ((do
      f (← DialectPool.database name) : Action DialectPool Dialect).runWith loggers p).state := by
  cases DialectPool.database name with
  | error e => exact .refl p
  | ok database => exact grows database

/-- What is handed out as shared is shared from then on. -/
theorem shared_of_result (sound : p.Sound)
    (result : ((sharedDialect database).run p).result = .ok d) :
    ((sharedDialect database).run p).state.shared? database = some d ∧ d.database = database := by
  simp only [sharedDialect, Action.run, Action.runWith] at result ⊢
  cases known : p.shared? database with
  | some shared =>
    simp only [known] at result ⊢
    obtain rfl := Except.ok.inj result
    exact ⟨rfl, sound database shared known⟩
  | none =>
    simp only [known] at result ⊢
    obtain rfl := Except.ok.inj result
    exact ⟨if_pos rfl, rfl⟩

theorem sharedNamed_of_named {name : String} (named : database.Named name) :
    sharedNamed name = sharedDialect database := by
  rw [sharedNamed, database_eq_ok.2 named]
  rfl

theorem freshNamed_of_named {name : String} (named : database.Named name) :
    freshNamed name = freshDialect database := by
  rw [freshNamed, database_eq_ok.2 named]
  rfl

end Steps

end DialectPool

end SqlSelect
