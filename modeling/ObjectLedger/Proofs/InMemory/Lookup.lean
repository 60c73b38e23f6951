import ObjectLedger.InMemory.Ledger
import ObjectLedger.Proofs.Resolve.Peers

/-!
# Questions to the ledger in memory

It answers from its tables, and a question changes nothing but the number of questions.
-/

namespace ObjectLedger.InMemory

/-- What is looked up in a state. -/
def data (m : InMemory) : FixedData where
  object := m.object?
  package := Table.get? m.packages
  price := .ok m.price
  coins owner coinType := .ok ((Table.get? m.coins (owner, coinKey coinType)).getD [])

/-- The same state, after some questions. -/
def Asked (m m' : InMemory) : Prop :=
  ∃ objectRequests packageRequests, m' = { m with objectRequests, packageRequests }

theorem Asked.refl (m : InMemory) : m.Asked m := ⟨_, _, rfl⟩

theorem answersFrom_lookup (m : InMemory) : lookup.AnswersFrom m.Asked m.data where
  objects := by
    rintro ids _ ⟨objects, packages, rfl⟩
    exact ⟨_, rfl, _, _, rfl⟩
  packages := by
    rintro names _ ⟨objects, packages, rfl⟩
    refine ⟨_, _, rfl, ⟨_, _, rfl⟩, fun name hname => ?_⟩
    have hget := Table.get?_tabulate (Table.get? m.packages) names name
    rw [if_pos hname] at hget
    exact hget
  gasPrice := by
    rintro _ ⟨objects, packages, rfl⟩
    exact ⟨_, rfl, _, _, rfl⟩
  coins := by
    rintro owner coinType _ ⟨objects, packages, rfl⟩
    exact ⟨_, rfl, _, _, rfl⟩

theorem keeps_lookup (m : InMemory) : lookup.Keeps m.Asked := (answersFrom_lookup m).keeps

/-! ### A build that may ask it -/

def options : BuildOptions InMemory := { lookup := some lookup }

def kindOptions : BuildOptions InMemory := { options with kindOnly := true }

theorem keeps_options (m : InMemory) : options.Keeps m.Asked :=
  BuildOptions.keeps_of_lookup rfl (keeps_lookup m)

theorem keeps_kindOptions (m : InMemory) : kindOptions.Keeps m.Asked :=
  BuildOptions.keeps_of_lookup rfl (keeps_lookup m)

end ObjectLedger.InMemory
