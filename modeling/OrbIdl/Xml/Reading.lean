/-! # What could be read before the end or the first fault -/

namespace OrbIdl.Xml

/-- The items read in order, and what stopped the reading, if it did not come to the end. -/
structure Reading (ε α : Type) where
  items : List α
  fault : Option ε

namespace Reading

variable {ε α : Type}

/-- Nothing more to read. -/
def done : Reading ε α := ⟨[], none⟩

def stop (fault : ε) : Reading ε α := ⟨[], some fault⟩

def cons (item : α) (rest : Reading ε α) : Reading ε α :=
  ⟨item :: rest.items, rest.fault⟩

@[simp] theorem items_cons (item : α) (rest : Reading ε α) :
    (cons item rest).items = item :: rest.items := rfl

@[simp] theorem fault_cons (item : α) (rest : Reading ε α) :
    (cons item rest).fault = rest.fault := rfl

end Reading

end OrbIdl.Xml
