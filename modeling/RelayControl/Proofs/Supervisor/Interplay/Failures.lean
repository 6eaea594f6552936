import RelayControl.Proofs.Supervisor.Interplay.Alone
import RelayControl.Proofs.Supervisor.Interplay.Monitoring

/-!
The failure of a dead process stays the one it is, whoever goes on.
-/

namespace RelayControl

namespace Supervisor

variable {s : Supervisor} {id other : Nat} {i : Instance} {f : ProcessFailure}

theorem instance?_update {change : Instance → Instance} (keeps : ∀ i, (change i).id = i.id) :
    (s.update id change).instance? other =
      (s.instance? other).map fun i => if i.id == id then change i else i := by
  rw [instance?, update, List.find?_map, instance?]
  congr 2
  funext i
  simp only [Function.comp]
  split
  · rw [keeps i]
  · rfl

def Died (s : Supervisor) (id : Nat) (f : ProcessFailure) : Prop :=
  ∃ i, s.instance? id = some i ∧ i.alive = false ∧ failureOf i = f

theorem Died.unique {g : ProcessFailure} (died : s.Died id f) (also : s.Died id g) : f = g := by
  obtain ⟨i, found, -, rfl⟩ := died
  obtain ⟨j, found', -, rfl⟩ := also
  cases found.symm.trans found'
  rfl

theorem Died.update {change : Instance → Instance} (died : s.Died id f)
    (keeps : ∀ i, (change i).id = i.id)
    (still : ∀ i, i.alive = false → (change i).alive = false ∧ failureOf (change i) = failureOf i) :
    (s.update other change).Died id f := by
  obtain ⟨i, found, dead, rfl⟩ := died
  refine ⟨if i.id == other then change i else i, by rw [instance?_update keeps, found]; rfl, ?_⟩
  split
  · exact still i dead
  · exact ⟨dead, rfl⟩

theorem Died.callOff (died : s.Died id f) : (s.callOff other).Died id f :=
  died.update (fun _ => rfl) fun _ dead => ⟨dead, rfl⟩

theorem Died.stopProcess (died : s.Died id f) : (s.stopProcess other).Died id f :=
  died.update (fun _ => rfl) fun _ _ => ⟨rfl, rfl⟩

theorem Died.print {lines : List String} (died : s.Died id f) : (s.print other lines).Died id f :=
  died.update (fun _ => rfl) fun _ dead => ⟨dead, rfl⟩

theorem Died.exitProcess {g : ProcessFailure} (died : s.Died id f) :
    (s.exitProcess other g).Died id f := by
  refine died.update (fun i => i.process.exited_id g) fun i dead => ?_
  have unchanged : i.process.exited g = i.process := by
    have stopped : ¬ i.process.running = true := by simpa [Instance.alive] using dead
    rw [RelayProcess.exited, if_neg stopped]
  rw [unchanged]
  exact ⟨dead, rfl⟩

theorem Died.keepResult (died : s.Died id f) : (s.keepResult other).Died id f := by
  rwa [Died, instance?_keepResult]

theorem instance?_enrol {process : RelayProcess} (fresh : ∀ other ∈ s.ids, other < process.id)
    (known : id ∈ s.ids) : (s.enrol process).instance? id = s.instance? id := by
  have differs : ¬ (process.id == id) = true := by
    have below := fresh id known
    simp only [beq_iff_eq]
    omega
  rw [instance?, enrol, List.find?_cons_of_neg (by exact differs)]
  rfl

end Supervisor

namespace Interplay

variable {p : ProcessSettings} {w w' : Interplay} {a : Action} {e : Option Event} {id : Nat}
  {f : ProcessFailure}

theorem Sound.died_step (sound : Sound w) (step : Step p w a e w') (died : w.supervisor.Died id f) :
    w'.supervisor.Died id f := by
  have fits := sound.fits
  cases step with
  | calledOff | stopCalledOff => exact died.callOff
  | replaced | stopEnded => exact died.stopProcess
  | exited => exact died.exitProcess
  | printed => exact died.print
  | kept | stopKept | keeps => exact died.keepResult
  | launched _ held began =>
      rw [held] at fits
      obtain ⟨same, -, -⟩ := RelayProcess.launch_id began
      obtain ⟨i, found, dead⟩ := died
      refine ⟨i, ?_, dead⟩
      rw [← found]
      exact Supervisor.instance?_enrol (same ▸ fits.fresh) (Supervisor.mem_ids_of_instance? found)
  | _ => exact died

end Interplay

end RelayControl
