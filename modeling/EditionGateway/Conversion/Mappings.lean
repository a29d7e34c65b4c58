import EditionGateway.Table

/-!
What the blocks, sounds and entities of the backend are called at the client.
-/

namespace EditionGateway

structure Mappings where
  blocks : Table Int32 UInt32 := []
  sounds : Table Int32 UInt32 := []
  entities : Table Int32 String := []
deriving Repr

namespace Mappings

def block? (m : Mappings) (state : Int32) : Option UInt32 := m.blocks.get? state

def sound? (m : Mappings) (id : Int32) : Option UInt32 := m.sounds.get? id

def entity? (m : Mappings) (type : Int32) : Option String := m.entities.get? type

def size (m : Mappings) : Nat := m.blocks.length + m.sounds.length + m.entities.length

end Mappings
end EditionGateway
