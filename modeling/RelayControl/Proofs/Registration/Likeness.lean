import RelayControl.Proofs.Registration.Calls

/-!
Stored texts that differ in the credential only, and there only in what a view of credentials leaves
out. Whoever reads the credential through the view cannot tell such texts apart.
-/

namespace RelayControl

/-- Texts in which the credentials look the same, and everything else is the same. -/
structure AlikeTexts (view : Credential → α) (texts others : List (String × String)) : Prop where
  held : SameUpTo (fun c d => c.map view = d.map view) (heldCredential texts)
    (heldCredential others)
  rest : ∀ key, key ≠ StoreKey.credential → texts.lookup key = others.lookup key

namespace AlikeTexts

variable {view : Credential → α} {texts others : List (String × String)}

theorem refl (view : Credential → α) (texts : List (String × String)) :
    AlikeTexts view texts texts where
  held := by
    apply SameUpTo.refl
    intro held
    rfl
  rest _ _ := rfl

theorem putCredential (alike : AlikeTexts view texts others) {c d : Credential}
    (same : view c = view d) :
    AlikeTexts view (Store.putText StoreKey.credential c.stored texts)
      (Store.putText StoreKey.credential d.stored others) where
  held := by
    rw [heldCredential_putText, heldCredential_putText]
    exact .value (congrArg some same)
  rest key differs := by
    rw [Store.lookup_putText_of_ne differs, Store.lookup_putText_of_ne differs]
    exact alike.rest key differs

theorem renewed {c d : Credential} (held : heldCredential texts = .ok (some c))
    (same : view c = view d) :
    AlikeTexts view texts (Store.putText StoreKey.credential d.stored texts) where
  held := by
    rw [held, heldCredential_putText]
    exact .value (congrArg some same)
  rest key differs := (Store.lookup_putText_of_ne differs _ _).symm

theorem putRemote (alike : AlikeTexts view texts others) (text : String) :
    AlikeTexts view (Store.putText StoreKey.remoteConfig text texts)
      (Store.putText StoreKey.remoteConfig text others) where
  held := by
    rw [heldCredential_putText_remoteConfig, heldCredential_putText_remoteConfig]
    exact alike.held
  rest key differs := by
    by_cases own : key = StoreKey.remoteConfig
    · subst own
      rw [Store.lookup_putText_self, Store.lookup_putText_self]
    · rw [Store.lookup_putText_of_ne own, Store.lookup_putText_of_ne own]
      exact alike.rest key differs

end AlikeTexts

end RelayControl
