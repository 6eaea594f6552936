import RelayControl.Proofs.Store.Traffic

/-!
Traffic in one transaction. Whichever statement fails, and if it is the commit, the store is as it
was before the call; else all entries are counted. Main statement: what is counted for each row is
the sum of its own entries, however they are grouped into calls and ordered.
-/

namespace RelayControl

structure Incidents.Spare (i : Incidents) (statements : Nat) : Prop where
  opening : i.opening = none
  statement : ∀ n, n < statements → i.statement n = none
  commit : i.commit = none

namespace Connection

theorem execute_open_eq_ok_iff {stored draft : Store} {incident : Option StoreFault}
    {statement : Statement} {c : Connection} :
    execute ⟨stored, some draft⟩ incident statement = .ok c ↔
      incident = none ∧ ∃ next, statement.run draft = .ok next ∧ ⟨stored, some next⟩ = c := by
  cases incident with
  | some f => simp [execute]
  | none => simp [execute]

theorem proceed_cons_of_ok {incident : Nat → Option StoreFault} {c next : Connection}
    {statement : Statement} (executed : c.execute (incident 0) statement = .ok next)
    (rest : List Statement) :
    c.proceed incident (statement :: rest) = next.proceed (fun n => incident (n + 1)) rest := by
  rw [proceed, executed]

/-- While a transaction is open its statements work on the draft and leave the store alone. -/
theorem proceed_open (incident : Nat → Option StoreFault) (stored draft : Store)
    (statements : List Statement) :
    ∃ final, (proceed incident ⟨stored, some draft⟩ statements).2 = ⟨stored, some final⟩ ∧
      ((proceed incident ⟨stored, some draft⟩ statements).1 = .ok () →
        (∀ n, n < statements.length → incident n = none) ∧
          statements.foldlM Statement.run draft = .ok final) := by
  induction statements generalizing incident draft with
  | nil => exact ⟨draft, rfl, fun _ => ⟨nofun, rfl⟩⟩
  | cons statement rest ih =>
      cases executed : execute ⟨stored, some draft⟩ (incident 0) statement with
      | error f =>
          rw [proceed, executed]
          exact ⟨draft, rfl, nofun⟩
      | ok c =>
          rw [proceed_cons_of_ok executed]
          obtain ⟨spared, next, first, rfl⟩ := execute_open_eq_ok_iff.mp executed
          obtain ⟨final, left, done⟩ := ih (fun n => incident (n + 1)) next
          refine ⟨final, left, ?_⟩
          intro succeeded
          obtain ⟨later, ran⟩ := done succeeded
          constructor
          · intro n below
            cases n with
            | zero => exact spared
            | succ n => exact later n (Nat.lt_of_succ_lt_succ below)
          · rw [List.foldlM_cons, first]
            exact ran

theorem proceed_of_spared {incident : Nat → Option StoreFault} {stored draft final : Store}
    {statements : List Statement}
    (spared : ∀ n, n < statements.length → incident n = none)
    (ran : statements.foldlM Statement.run draft = .ok final) :
    proceed incident ⟨stored, some draft⟩ statements = (.ok (), ⟨stored, some final⟩) := by
  induction statements generalizing incident draft with
  | nil =>
      cases ran
      rfl
  | cons statement rest ih =>
      obtain ⟨next, first, ran⟩ := bind_eq_ok_iff.mp ran
      have executed : execute ⟨stored, some draft⟩ (incident 0) statement =
          .ok ⟨stored, some next⟩ :=
        execute_open_eq_ok_iff.mpr ⟨spared 0 (Nat.zero_lt_succ _), next, first, rfl⟩
      rw [proceed_cons_of_ok executed]
      exact ih (fun n below => spared (n + 1) (Nat.succ_lt_succ below)) ran

/-- What a call makes of a store: all or nothing, and all exactly where nothing goes wrong. -/
structure Persists (s : Store) (i : Incidents) (tags : List TagTraffic)
    (clients : List ClientTraffic) (result : Except StoreFault Unit × Connection) : Prop where
  nothing : ∀ f, result.1 = .error f → result.2 = { stored := s }
  all : result.1 = .ok () →
    ∃ s', s.addTraffic tags clients = .ok s' ∧ result.2 = { stored := s' }
  succeeds_iff : result.1 = .ok () ↔
    (tags = [] ∧ clients = []) ∨
      i.Spare (Statement.ofTraffic tags clients).length ∧ s.Reaches tags clients

variable {s : Store} {i : Incidents} {tags : List TagTraffic} {clients : List ClientTraffic}

theorem persists_of_error {f : StoreFault} (entries : ¬(tags = [] ∧ clients = []))
    (hindered : i.Spare (Statement.ofTraffic tags clients).length → ¬s.Reaches tags clients) :
    Persists s i tags clients (.error f, { stored := s }) where
  nothing _ _ := rfl
  all := nofun
  succeeds_iff := by
    refine iff_of_false nofun ?_
    rintro (nothing | ⟨spare, reaches⟩)
    · exact entries nothing
    · exact hindered spare reaches

theorem addTraffic_of_entries (entries : ¬(tags = [] ∧ clients = [])) :
    addTraffic { stored := s } i tags clients =
      match i.opening with
      | some f => (.error f, { stored := s })
      | none =>
          match proceed i.statement ⟨s, some s⟩ (Statement.ofTraffic tags clients) with
          | (.error f, failed) => (.error f, failed.rollback)
          | (.ok (), done) =>
              match done.commit i.commit with
              | .error f => (.error f, done.rollback)
              | .ok committed => (.ok (), committed) := by
  have filled : ¬(tags.isEmpty && clients.isEmpty) = true := by
    rw [Bool.and_eq_true, List.isEmpty_iff, List.isEmpty_iff]
    exact entries
  rw [addTraffic, if_neg filled]
  cases i.opening <;> rfl

theorem addTraffic_persists (s : Store) (i : Incidents) (tags : List TagTraffic)
    (clients : List ClientTraffic) :
    Persists s i tags clients (addTraffic { stored := s } i tags clients) := by
  by_cases nothing : tags = [] ∧ clients = []
  · obtain ⟨rfl, rfl⟩ := nothing
    exact ⟨nofun, fun _ => ⟨s, rfl, rfl⟩, iff_of_true rfl (.inl ⟨rfl, rfl⟩)⟩
  · rw [addTraffic_of_entries nothing]
    cases opening : i.opening with
    | some f =>
        apply persists_of_error nothing
        intro spare
        rw [spare.opening] at opening
        cases opening
    | none =>
        have complete : i.Spare (Statement.ofTraffic tags clients).length → s.Reaches tags clients →
            (proceed i.statement ⟨s, some s⟩ (Statement.ofTraffic tags clients)).1 = .ok () := by
          intro spare reaches
          have counted := Store.addTraffic_eq s tags clients
          rw [if_pos reaches, Store.addTraffic_eq_foldlM] at counted
          rw [proceed_of_spared spare.statement counted]
        obtain ⟨draft, left, done⟩ :=
          proceed_open i.statement s s (Statement.ofTraffic tags clients)
        rw [← Store.addTraffic_eq_foldlM] at done
        -- from here on only what is known of the statements counts, not how they were run
        dsimp only
        generalize proceed i.statement ⟨s, some s⟩ (Statement.ofTraffic tags clients) = proceeded
          at left done complete ⊢
        obtain ⟨outcome, final⟩ := proceeded
        obtain rfl : final = ⟨s, some draft⟩ := left
        cases outcome with
        | error f =>
            apply persists_of_error nothing
            intro spare reaches
            cases complete spare reaches
        | ok =>
            obtain ⟨spared, counted⟩ := done rfl
            cases commit : i.commit with
            | some f =>
                apply persists_of_error nothing
                intro spare
                rw [spare.commit] at commit
                cases commit
            | none =>
                refine ⟨nofun, fun _ => ⟨draft, counted, rfl⟩, iff_of_true rfl (.inr ⟨?_, ?_⟩)⟩
                · exact ⟨opening, spared, commit⟩
                · rw [Store.addTraffic_eq] at counted
                  split at counted
                  · assumption
                  · cases counted

theorem proceed_undisturbed (stored draft : Store) (statements : List Statement) :
    (proceed (fun _ => none) ⟨stored, some draft⟩ statements).1 =
      (statements.foldlM Statement.run draft).map fun _ => () := by
  induction statements generalizing draft with
  | nil => rfl
  | cons statement rest ih =>
      rw [List.foldlM_cons]
      cases first : statement.run draft with
      | error f =>
          have failed : execute ⟨stored, some draft⟩ none statement = .error f := by
            simp [execute, first, Except.map]
          rw [proceed, failed]
          rfl
      | ok next =>
          have executed : execute ⟨stored, some draft⟩ none statement =
              .ok ⟨stored, some next⟩ :=
            execute_open_eq_ok_iff.mpr ⟨rfl, next, first, rfl⟩
          rw [proceed, executed]
          exact ih next

theorem addTraffic_undisturbed (s : Store) (tags : List TagTraffic)
    (clients : List ClientTraffic) :
    addTraffic { stored := s } {} tags clients =
      ((s.addTraffic tags clients).map fun _ => (),
        { stored := s.perform (.addTraffic tags clients) }) := by
  have performed : s.perform (.addTraffic tags clients) =
      (s.addTraffic tags clients).toOption.getD s := rfl
  rw [performed]
  by_cases nothing : tags = [] ∧ clients = []
  · obtain ⟨rfl, rfl⟩ := nothing
    rfl
  · have ran := proceed_undisturbed s s (Statement.ofTraffic tags clients)
    obtain ⟨draft, left, done⟩ :=
      proceed_open (fun _ => none) s s (Statement.ofTraffic tags clients)
    rw [← Store.addTraffic_eq_foldlM] at ran done
    rw [addTraffic_of_entries nothing]
    dsimp only
    generalize proceed (fun _ => none) ⟨s, some s⟩ (Statement.ofTraffic tags clients) = proceeded
      at ran left done ⊢
    obtain ⟨outcome, final⟩ := proceeded
    obtain rfl : final = ⟨s, some draft⟩ := left
    obtain rfl : outcome = (s.addTraffic tags clients).map fun _ => () := ran
    cases counted : s.addTraffic tags clients with
    | error f => rfl
    | ok s' =>
        rw [counted] at done
        obtain ⟨-, same⟩ := done rfl
        cases same
        rfl

end Connection

namespace Store

open Connection

/--
Any traffic of which all sums fit is counted as a whole or, where a statement or the commit fails,
not at all. A row is raised by the sums of its own entries, and entries of inbounds and emails that
are not known change nothing. Two calls count what one does with the entries of both, and the order
of the entries does not matter.
-/
theorem addTraffic_accounted (history : List StoreAction) {tags : List TagTraffic}
    {clients : List ClientTraffic} (bears : (after history).Bears tags clients) :
    let s := after history
    (∀ i, Persists s i tags clients (Connection.addTraffic { stored := s } i tags clients)) ∧
      Connection.addTraffic { stored := s } {} tags clients =
        ((s.addTraffic tags clients).map fun _ => (),
          { stored := after (history ++ [.addTraffic tags clients]) }) ∧
      (∀ s', s.addTraffic tags clients = .ok s' →
        s.Grown tags clients s' ∧
          s.addTraffic (tags.filter s.concerns) (clients.filter s.knows) = .ok s') ∧
      (∀ tags₁ tags₂ clients₁ clients₂, tags = tags₁ ++ tags₂ → clients = clients₁ ++ clients₂ →
        (do
          let counted ← s.addTraffic tags₁ clients₁
          counted.addTraffic tags₂ clients₂) = s.addTraffic tags clients) ∧
      ∀ tags' clients', tags.Perm tags' → clients.Perm clients' →
        Rising tags clients ∨ s.Bears tags' clients' →
        s.addTraffic tags' clients' = s.addTraffic tags clients := by
  intro s
  have ordered : Ordered s.outbounds := after_ordered history
  refine ⟨fun i => addTraffic_persists s i tags clients, ?_, ?_, ?_, ?_⟩
  · rw [addTraffic_undisturbed, after, performAll, List.foldl_append]
    rfl
  · intro s' counted
    refine ⟨?_, addTraffic_known counted⟩
    rw [addTraffic_eq] at counted
    split at counted
    · obtain rfl := Except.ok.inj counted
      exact bears.grown ordered
    · cases counted
  · rintro tags₁ tags₂ clients₁ clients₂ rfl rfl
    exact addTraffic_append s tags₁ tags₂ clients₁ clients₂
  · intro tags' clients' sameTags sameClients reason
    have bears' : s.Bears tags' clients' := by
      rcases reason with rising | bears'
      · exact bears.perm rising sameTags sameClients
      · exact bears'
    exact (addTraffic_perm ordered bears bears' sameTags sameClients).symm

/-- Entries of an inbound, of outbounds old and new, of nothing that is known and of nothing at all;
one takes something back. The fourth statement of a second attempt fails. -/
theorem addTraffic_accounted_mixed :
    let history : List StoreAction :=
      [.addInbound { tag := "R1", port := 443, protocol := "vless" },
        .addClient 1 "a@x" true,
        .addTraffic [⟨false, true, "direct", 5, 7⟩] [⟨"a@x", 1, 1⟩]]
    let tags : List TagTraffic :=
      [⟨true, true, "R1", 1, 2⟩, ⟨false, true, "direct", -5, 4⟩, ⟨true, false, "ghost", 9, 9⟩,
        ⟨false, false, "none", 8, 8⟩, ⟨false, true, "Z", 3, 3⟩, ⟨false, true, "direct", 10, 0⟩]
    let clients : List ClientTraffic := [⟨"a@x", 2, 2⟩, ⟨"ghost@x", 1, 1⟩, ⟨"a@x", 4, 0⟩]
    let full : StoreFault := { cause := .reason "database or disk is full" }
    let s := after history
    s.Bears tags clients ∧
      ∃ s', s.addTraffic tags clients = .ok s' ∧ s.Grown tags clients s' ∧
        s'.inbounds.map (fun r => (r.tag, r.up, r.down)) = [("R1", .whole 1, .whole 2)] ∧
        s'.clientUsage? "a@x" = .ok (some ⟨1, "a@x", true, 7, 3⟩) ∧
        s'.outboundUsage = .ok [⟨"Z", 3, 3, 6⟩, ⟨"direct", 10, 11, 21⟩] ∧
        s.addTraffic tags.reverse clients.reverse = .ok s' ∧
        Connection.addTraffic { stored := s }
          { statement := fun n => if n = 3 then some full else none } tags clients =
            (.error full, { stored := s }) := by
  intro history tags clients full s
  have bears : s.Bears tags clients := by decide +kernel
  have reversed : s.Bears tags.reverse clients.reverse := by decide +kernel
  obtain ⟨persists, -, counts, -, reorders⟩ := addTraffic_accounted history bears
  obtain ⟨s', counted⟩ : ∃ s', s.addTraffic tags clients = .ok s' := ⟨_, rfl⟩
  obtain ⟨grown, -⟩ := counts s' counted
  have again := reorders tags.reverse clients.reverse (List.reverse_perm tags).symm
    (List.reverse_perm clients).symm (.inr reversed)
  obtain rfl : s.withTraffic tags clients = s' := Except.ok.inj counted
  refine ⟨bears, _, counted, grown, ?_, ?_, ?_, again.trans counted, ?_⟩
  · decide +kernel
  · decide +kernel
  · decide +kernel
  · have failed : (Connection.addTraffic { stored := s }
        { statement := fun n => if n = 3 then some full else none } tags clients).1 =
          .error full := by decide +kernel
    exact Prod.ext failed ((persists _).nothing full failed)

end Store

end RelayControl
