import Windowing.Proofs.Hosted.Mounted
import Windowing.Proofs.Rows.History

/-!
# A configuration is accepted or refused as a whole

A configuration is looked at again and again: by itself, for the layout, for the options, and
when a list is mounted. The layouts check their heights once more. All of these come to one
verdict, for every number of rows, because a height that passed the first check is positive
and no later check asks for more.

A list is mounted only after the last check. A container that is offered a refused
configuration does not hear of it.

Results:
1. `Config.check_eq_ok_iff`: which configurations are accepted, and as what.
2. `Config.exists_rows`: an accepted configuration has a layout for every number of rows.
3. `mount_all_or_nothing`: the verdicts agree, and what an accepted list is mounted as.
-/

namespace Windowing

/-! ## Checks -/

theorem bind_eq_ok_iff {ε α β : Type} {x : Except ε α} {f : α → Except ε β} {b : β} :
    x >>= f = .ok b ↔ ∃ a, x = .ok a ∧ f a = .ok b := by
  cases x with
  | error e => exact iff_of_false nofun nofun
  | ok a =>
    constructor
    · exact fun same => ⟨a, rfl, same⟩
    · rintro ⟨_, ⟨⟩, same⟩
      exact same

theorem checkHeight_eq_ok_iff {given : Int} {height : UInt32} :
    checkHeight given = .ok height ↔ 0 < height.toNat ∧ given = height.toNat := by
  have bound : height.toNat < 4294967296 := height.toNat_lt
  have greatest : greatestHeight.toNat = 4294967295 := rfl
  unfold checkHeight
  split
  · next none => exact iff_of_false nofun (by omega)
  · split
    · next positive small =>
      have small : given.toNat < UInt32.size := by
        have size : UInt32.size = 4294967296 := rfl
        omega
      rw [Except.ok.injEq, ← UInt32.toNat_inj, UInt32.toNat_ofNat_of_lt' small]
      omega
    · next large => exact iff_of_false nofun (by omega)

theorem checkOverscan_eq_ok_iff {given : Int} {overscan : Nat} :
    checkOverscan given = .ok overscan ↔ given = overscan := by
  unfold checkOverscan
  split
  · next negative => exact iff_of_false nofun (by omega)
  · next natural =>
    rw [Except.ok.injEq]
    omega

/-- The height of the rows, fixed or estimated. -/
def HeightRule.height : HeightRule → UInt32
  | fixed height => height
  | estimated height => height

namespace Config

/-- What a configuration means: a fixed height wins over an estimate. -/
def Means (config : Config) : HeightRule → Nat → Prop
  | .fixed height, overscan =>
    config.overscan = overscan ∧ 0 < height.toNat ∧ config.rowHeight = some ↑height.toNat
  | .estimated height, overscan =>
    config.overscan = overscan ∧ 0 < height.toNat ∧ config.rowHeight = none ∧
      config.estimatedHeight = some ↑height.toNat

variable {config : Config} {rule : HeightRule} {overscan : Nat}

theorem Means.overscan_eq (means : config.Means rule overscan) : config.overscan = overscan := by
  cases rule <;> exact means.1

theorem Means.height_pos (means : config.Means rule overscan) : 0 < rule.height.toNat := by
  cases rule <;> exact means.2.1

theorem check_eq_ok_iff : config.check = .ok (rule, overscan) ↔ config.Means rule overscan := by
  unfold check
  rw [bind_eq_ok_iff]
  constructor
  · rintro ⟨n, natural, rest⟩
    rw [checkOverscan_eq_ok_iff] at natural
    cases fixed : config.rowHeight with
    | some given =>
      rw [fixed] at rest
      obtain ⟨height, checked, ⟨⟩⟩ := bind_eq_ok_iff.mp rest
      obtain ⟨positive, rfl⟩ := checkHeight_eq_ok_iff.mp checked
      exact ⟨natural, positive, fixed⟩
    | none =>
      cases estimated : config.estimatedHeight with
      | some given =>
        rw [fixed, estimated] at rest
        obtain ⟨height, checked, ⟨⟩⟩ := bind_eq_ok_iff.mp rest
        obtain ⟨positive, rfl⟩ := checkHeight_eq_ok_iff.mp checked
        exact ⟨natural, positive, fixed, estimated⟩
      | none =>
        rw [fixed, estimated] at rest
        cases rest
  · intro means
    refine ⟨overscan, checkOverscan_eq_ok_iff.mpr means.overscan_eq, ?_⟩
    have checked := checkHeight_eq_ok_iff.mpr ⟨means.height_pos, rfl⟩
    cases rule with
    | fixed height =>
      obtain ⟨_, _, fixed⟩ := means
      rw [fixed]
      exact bind_eq_ok_iff.mpr ⟨height, checked, rfl⟩
    | estimated height =>
      obtain ⟨_, _, none, estimated⟩ := means
      rw [none, estimated]
      exact bind_eq_ok_iff.mpr ⟨height, checked, rfl⟩

example : check { rowHeight := some 40, estimatedHeight := some (-3) } = .ok (.fixed 40, 3) := by
  decide

end Config

/-! ## Layouts and options -/

theorem UniformRows.size_ofHeight {count : Nat} {height : UInt32} {rows : UniformRows}
    (built : ofHeight count height = .ok rows) {i : Nat} (inside : i < count) :
    RowLayout.size rows i = height := by
  unfold ofHeight at built
  split at built
  · cases built
    exact if_pos inside
  · cases built

theorem MeasuredRows.size_ofEstimate {count : Nat} {estimate : Nat → UInt32} {r : MeasuredRows}
    (built : ofEstimate count estimate = .ok r) {i : Nat} (inside : i < count) :
    RowLayout.size r i = estimate i := by
  unfold ofEstimate at built
  split at built
  · cases built
  · cases built
    rw [size_eq_sizeAt, sizeAt, sizes]
    simp [inside]

namespace Config

variable {config : Config} {rule : HeightRule} {overscan : Nat}

/-- The layouts do not refuse a height that was accepted. -/
theorem exists_rows (means : config.Means rule overscan) (count : Nat) :
    ∃ rows, config.rows count = .ok rows ∧ RowLayout.count rows = count ∧
      (∀ i < count, RowLayout.size rows i = rule.height) ∧
      (rows.measured?.isSome ↔ ∃ height, rule = .estimated height) := by
  have checked := check_eq_ok_iff.mpr means
  cases rule with
  | fixed height =>
    have built : UniformRows.ofHeight count height = .ok ⟨count, height, means.height_pos⟩ :=
      dif_pos means.height_pos
    have made : config.rows count = .ok (.uniform ⟨count, height, means.height_pos⟩) :=
      bind_eq_ok_iff.mpr ⟨_, checked, bind_eq_ok_iff.mpr ⟨_, built, rfl⟩⟩
    exact ⟨_, made, rfl, fun i inside => UniformRows.size_ofHeight built inside,
      iff_of_false nofun nofun⟩
  | estimated height =>
    have nonzero (i : Nat) (_ : i < count) : (fun _ : Nat => height) i ≠ 0 :=
      UInt32.pos_iff_ne_zero.mp means.height_pos
    obtain ⟨r, built, _, _⟩ := MeasuredRows.exists_ofEstimate nonzero
    have made : config.rows count = .ok (.measured r) :=
      bind_eq_ok_iff.mpr ⟨_, checked, bind_eq_ok_iff.mpr ⟨_, built, rfl⟩⟩
    exact ⟨_, made, MeasuredRows.count_ofEstimate built,
      fun i inside => MeasuredRows.size_ofEstimate built inside, iff_of_true rfl ⟨height, rfl⟩⟩

theorem options_eq (means : config.Means rule overscan) :
    config.options = .ok { overscan, settleDelay := config.settleDelay } :=
  bind_eq_ok_iff.mpr ⟨_, check_eq_ok_iff.mpr means, rfl⟩

theorem rows_eq_error {e : SetupError} (refused : config.check = .error e) (count : Nat) :
    config.rows count = .error e := by
  unfold rows
  rw [refused]
  rfl

theorem options_eq_error {e : SetupError} (refused : config.check = .error e) :
    config.options = .error e := by
  unfold options
  rw [refused]
  rfl

end Config

/-! ## Mounting -/

namespace HostedList

variable {ι η : Type} [Container η]

/-- The list that an accepted configuration makes of some items in a container. -/
structure MountedAs (config : Config) (rule : HeightRule) (host : η) (items : Array ι)
    (l : HostedList ι) : Prop where
  items_eq : l.items = items
  count_eq : l.list.count = items.size
  size_eq : ∀ row < items.size, RowLayout.size l.list.rows row = rule.height
  measured_iff : l.list.rows.measured?.isSome ↔ ∃ height, rule = .estimated height
  overscan_eq : (l.list.options.overscan : Int) = config.overscan
  settleDelay_eq : l.list.options.settleDelay = config.settleDelay
  view_eq : l.list.view = .ofHost (Container.offset host) (Container.height host)
  published_eq : l.list.published =
    windowAt l.list.rows (.ofHost (Container.offset host) (Container.height host))
      l.list.options.overscan

theorem mount_of_means {config : Config} {rule : HeightRule} {overscan : Nat}
    (means : config.Means rule overscan) (host : η) (items : Array ι) :
    ∃ l, mount host items config = (.ok l, (Container.subscribe host).2) ∧
      MountedAs config rule host items l := by
  obtain ⟨rows, made, count, size, measured⟩ := config.exists_rows means items.size
  have mounted : mount host items config =
      let mounted := mountRows host items rows
        { overscan, settleDelay := config.settleDelay } config.emptyMessage
      (.ok mounted.1, mounted.2) := by
    unfold mount
    rw [made, config.options_eq means]
  -- The layout was built for as many rows as there are items, so it is not resized.
  have kept : (mountRows host items rows { overscan, settleDelay := config.settleDelay }
      config.emptyMessage).1.list.rows = rows := if_pos count
  refine ⟨_, mounted, ?_⟩
  exact
    { items_eq := rfl
      count_eq := (congrArg RowLayout.count kept).trans count
      size_eq := fun row inside => by rw [kept, size row inside]
      measured_iff := by rw [kept, measured]
      overscan_eq := means.overscan_eq.symm
      settleDelay_eq := rfl
      view_eq := rfl
      published_eq := rfl }

end HostedList

/-- The check, the layouts, the options and mounting either all refuse a configuration for the
same cause, and then mounting leaves the container alone, or they all accept it. -/
theorem mount_all_or_nothing (config : Config) :
    (∃ e, config.check = .error e ∧ (∀ rule overscan, ¬config.Means rule overscan) ∧
      (∀ count, config.rows count = .error e) ∧ config.options = .error e ∧
      ∀ {ι η : Type} [Container η] (host : η) (items : Array ι),
        HostedList.mount host items config = (.error e, host)) ∨
    (∃ rule overscan, config.check = .ok (rule, overscan) ∧ config.Means rule overscan ∧
      (∀ count, ∃ rows, config.rows count = .ok rows) ∧ (∃ options, config.options = .ok options) ∧
      ∀ {ι η : Type} [Container η] (host : η) (items : Array ι), ∃ l,
        HostedList.mount host items config = (.ok l, (Container.subscribe host).2) ∧
          HostedList.MountedAs config rule host items l) := by
  cases checked : config.check with
  | error e =>
    refine .inl ⟨e, rfl, fun rule overscan means => ?_, config.rows_eq_error checked,
      config.options_eq_error checked, fun host items => ?_⟩
    · rw [config.check_eq_ok_iff.mpr means] at checked
      cases checked
    · unfold HostedList.mount
      rw [config.rows_eq_error checked]
  | ok accepted =>
    have means := config.check_eq_ok_iff.mp checked
    refine .inr ⟨accepted.1, accepted.2, rfl, means, fun count => ?_, ⟨_, config.options_eq means⟩,
      fun host items => HostedList.mount_of_means means host items⟩
    obtain ⟨rows, made, _⟩ := config.exists_rows means count
    exact ⟨rows, made⟩

end Windowing
